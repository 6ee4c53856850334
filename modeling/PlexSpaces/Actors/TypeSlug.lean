import Mathlib
import PlexSpaces.Actors.ActorId
import PlexSpaces.Lib.Trim
/-!
# The actor types of a WASM application

The workers and the root supervisor of an application get an actor type derived from its
name: a lower-case slug, the suffix `_wasm` or `_supervisor`, and a cut at the longest type
allowed.  The suffix keeps the two apart, and the cut may take it away: a worker type and
a supervisor type are the same exactly when the slugs with their suffixes agree on
everything in front of the cut.
-/

namespace PlexSpaces.Actors

open PlexSpaces.Lib

def slugChar (c : Char) : Char :=
  if c.isLower || c.isDigit || c == '-' || c == '_' then c
  else if c.isUpper then c.toLower
  else '_'

/-- The slug of an application name; `none` stands for the panic of `expect`. -/
def wasmApplicationSlugBase (appName : String) : Option (List Char) :=
  let slug := trimMatches '_' (collapse '_' (appName.toList.map slugChar))
  let slug := if slug.isEmpty then "wasm".toList else slug
  slug.head?.map fun first => if !first.isLower then "app_".toList ++ slug else slug

/-- `String::truncate`, which panics where the cut is inside a letter. -/
def truncate : Nat → List Char → Option (List Char)
  | _, [] => some []
  | 0, _ :: _ => some []
  | n, c :: cs =>
      if c.utf8Size ≤ n then (truncate (n - c.utf8Size) cs).map (c :: ·) else none

/-- Letters are popped until the rest is a valid type. -/
def popInvalid (slug : List Char) : List Char :=
  if slug ≠ [] ∧ validateActorType (String.ofList slug) ≠ .ok () then popInvalid slug.dropLast
  else slug
termination_by slug.length
decreasing_by
  rename_i h
  have hpos := List.length_pos_of_ne_nil h.1
  simp only [List.length_dropLast]
  omega

def clampValidActorTypeSlug (slug : List Char) (fallback : String) : Option String :=
  let cut :=
    if actorTypeMaxLen < (String.ofList slug).utf8ByteSize then
      (truncate actorTypeMaxLen slug).map popInvalid
    else some slug
  cut.map fun slug =>
    if validateActorType (String.ofList slug) ≠ .ok () then fallback else String.ofList slug

def wasmWorkerActorTypeFromApplicationName (appName : String) : Option String := do
  let slug ← wasmApplicationSlugBase appName
  clampValidActorTypeSlug (pushSuffix "_wasm".toList slug) "wasm_app"

def wasmRootSupervisorActorTypeFromApplicationName (appName : String) : Option String := do
  let slug ← wasmApplicationSlugBase appName
  let slug :=
    if "_wasm".toList <:+ slug then trimEndMatches "_wasm".toList slug else slug
  clampValidActorTypeSlug (pushSuffix "_supervisor".toList slug) "wasm_supervisor"

/-- The types derived for the workers of `worker` and for the root supervisor of `root` are
valid and are not the same. -/
def TypesApart (worker root : String) : Prop :=
  ∃ workerType rootType,
    wasmWorkerActorTypeFromApplicationName worker = some workerType ∧
      wasmRootSupervisorActorTypeFromApplicationName root = some rootType ∧
      validateActorType workerType = .ok () ∧ validateActorType rootType = .ok () ∧
      workerType ≠ rootType

/-- The slugs of the two names, with their suffixes, agree on as many letters as a type may
have. -/
def AgreeToLimit (worker root : String) : Prop :=
  ∃ s t start, wasmApplicationSlugBase worker = some s ∧ wasmApplicationSlugBase root = some t ∧
    start.length = actorTypeMaxLen ∧ start <+: pushSuffix "_wasm".toList s ∧
    start <+: pushSuffix "_supervisor".toList (trimEndMatches "_wasm".toList t)

/-! ## What the slugs look like -/

/-- The text begins with a lower-case letter and has only the letters of a type. -/
structure IsSlug (slug : List Char) : Prop where
  head : ∃ first rest, slug = first :: rest ∧ first.isLower = true
  word : ∀ c ∈ slug, isWordChar c = true

theorem isWordChar_slugChar (c : Char) : isWordChar (slugChar c) = true := by
  unfold slugChar
  split_ifs with hkept hupper
  · simp only [Bool.or_eq_true] at hkept
    rcases hkept with ((hlower | hdigit) | hdash) | hunderscore
    · simp [isWordChar, Char.isAlphanum, Char.isAlpha, hlower]
    · simp [isWordChar, Char.isAlphanum, hdigit]
    · simp [isWordChar, hdash]
    · simp [isWordChar, hunderscore]
  · simp [isWordChar, Char.isAlphanum, Char.isAlpha, hupper]
  · rfl

theorem utf8Size_of_isWordChar {c : Char} (h : isWordChar c = true) : c.utf8Size = 1 := by
  have hval : c.val ≤ 127 := by
    simp only [isWordChar, Char.isAlphanum, Char.isAlpha, Char.isUpper, Char.isLower,
      Char.isDigit, Bool.or_eq_true, Bool.and_eq_true, decide_eq_true_eq, beq_iff_eq] at h
    rcases h with (((h | h) | h) | rfl) | rfl
    · exact UInt32.le_trans h.2 (by decide)
    · exact UInt32.le_trans h.2 (by decide)
    · exact UInt32.le_trans h.2 (by decide)
    · decide
    · decide
  unfold Char.utf8Size
  exact if_pos hval

theorem utf8ByteSize_of_word {slug : List Char} (h : ∀ c ∈ slug, isWordChar c = true) :
    (String.ofList slug).utf8ByteSize = slug.length := by
  rw [String.utf8ByteSize_ofList]
  induction slug with
  | nil => rfl
  | cons c slug ih =>
      rw [String.utf8Len_cons, ih (fun d hd => h d (List.mem_cons_of_mem _ hd)),
        utf8Size_of_isWordChar (h c List.mem_cons_self), List.length_cons]

namespace IsSlug

variable {slug : List Char}

theorem ne_nil (h : IsSlug slug) : slug ≠ [] := by
  obtain ⟨first, rest, rfl, -⟩ := h.head
  exact List.cons_ne_nil _ _

theorem of_prefix (h : IsSlug slug) {start : List Char} (hstart : start <+: slug)
    (hne : start ≠ []) : IsSlug start := by
  obtain ⟨first, rest, rfl, hlower⟩ := h.head
  refine ⟨?_, fun c hc => h.word c (hstart.subset hc)⟩
  cases start with
  | nil => exact absurd rfl hne
  | cons c start =>
      obtain ⟨rfl, -⟩ := List.cons_prefix_cons.mp hstart
      exact ⟨c, start, rfl, hlower⟩

theorem pushSuffix (h : IsSlug slug) {suffix : List Char}
    (hsuffix : ∀ c ∈ suffix, isWordChar c = true) : IsSlug (pushSuffix suffix slug) := by
  obtain ⟨first, rest, hslug, hlower⟩ := h.head
  obtain ⟨more, hmore⟩ := prefix_pushSuffix suffix slug
  refine ⟨⟨first, rest ++ more, ?_, hlower⟩, ?_⟩
  · rw [← hmore, hslug, List.cons_append]
  · intro c hc
    rcases mem_pushSuffix hc with hmem | hmem
    · exact h.word c hmem
    · exact hsuffix c hmem

theorem trimEndMatches (h : IsSlug slug) {first : Char} {suffix : List Char}
    (hfirst : first.isLower = false) : IsSlug (trimEndMatches (first :: suffix) slug) := by
  obtain ⟨c, rest, hslug, hlower⟩ := h.head
  apply h.of_prefix (trimEndMatches_initial _ _)
  apply trimEndMatches_ne_nil hslug
  rintro rfl
  rw [hfirst] at hlower
  cases hlower

theorem validate (h : IsSlug slug) (hlen : slug.length ≤ actorTypeMaxLen) :
    validateActorType (String.ofList slug) = .ok () := by
  have hsize : ¬actorTypeMaxLen < (String.ofList slug).utf8ByteSize := by
    rw [utf8ByteSize_of_word h.word]
    omega
  have hrequired : validateRequired "actor_type" (String.ofList slug) = .ok () := by
    rw [ActorId.validateRequired_iff, String.toList_ofList]
    exact h.ne_nil
  obtain ⟨first, rest, rfl, hlower⟩ := h.head
  have halpha : first.isAlpha = true := by simp [Char.isAlpha, hlower]
  have hword : rest.all isWordChar = true :=
    List.all_eq_true.mpr fun c hc => h.word c (List.mem_cons_of_mem _ hc)
  unfold validateActorType
  rw [hrequired]
  dsimp only
  rw [if_neg hsize, String.toList_ofList]
  simp [halpha, hword]

end IsSlug

theorem wasmApplicationSlugBase_isSlug (appName : String) :
    ∃ slug, wasmApplicationSlugBase appName = some slug ∧ IsSlug slug := by
  unfold wasmApplicationSlugBase
  have hword : ∀ c ∈ trimMatches '_' (collapse '_' (appName.toList.map slugChar)),
      isWordChar c = true := by
    intro c hc
    obtain ⟨d, -, rfl⟩ := List.mem_map.mp (mem_of_mem_collapse (mem_of_mem_trimMatches hc))
    exact isWordChar_slugChar d
  cases htrim : trimMatches '_' (collapse '_' (appName.toList.map slugChar)) with
  | nil =>
      refine ⟨"wasm".toList, rfl, ⟨'w', "asm".toList, rfl, rfl⟩, ?_⟩
      exact List.all_eq_true.mp (by decide)
  | cons first rest =>
      rw [htrim] at hword
      cases hlower : first.isLower with
      | true =>
          refine ⟨first :: rest, ?_, ⟨first, rest, rfl, hlower⟩, hword⟩
          simp only [List.isEmpty_cons, Bool.false_eq_true, if_false, List.head?_cons,
            Option.map_some, hlower, Bool.not_true]
      | false =>
          refine ⟨"app_".toList ++ first :: rest, ?_, ⟨'a', _, rfl, rfl⟩, ?_⟩
          · simp only [List.isEmpty_cons, Bool.false_eq_true, if_false, List.head?_cons,
              Option.map_some, hlower, Bool.not_false, if_true]
          · intro c hc
            rcases List.mem_append.mp hc with hc | hc
            · have happ : ∀ d ∈ "app_".toList, isWordChar d = true :=
                List.all_eq_true.mp (by decide)
              exact happ c hc
            · exact hword c hc

/-! ## The cut -/

theorem truncate_of_word (n : Nat) {slug : List Char} (h : ∀ c ∈ slug, isWordChar c = true) :
    truncate n slug = some (slug.take n) := by
  induction slug generalizing n with
  | nil => simp [truncate]
  | cons c slug ih =>
      have htail : ∀ d ∈ slug, isWordChar d = true :=
        fun d hd => h d (List.mem_cons_of_mem _ hd)
      cases n with
      | zero => simp [truncate]
      | succ n =>
          simp [truncate, utf8Size_of_isWordChar (h c List.mem_cons_self), ih n htail]

/-- A slug is cut at the limit, and what is left is a type. -/
theorem clampValidActorTypeSlug_of_isSlug {slug : List Char} (h : IsSlug slug)
    (fallback : String) :
    clampValidActorTypeSlug slug fallback =
        some (String.ofList (slug.take actorTypeMaxLen)) ∧
      validateActorType (String.ofList (slug.take actorTypeMaxLen)) = .ok () := by
  have hne : slug.take actorTypeMaxLen ≠ [] := by
    obtain ⟨first, rest, rfl, -⟩ := h.head
    simp [actorTypeMaxLen]
  have hvalid : validateActorType (String.ofList (slug.take actorTypeMaxLen)) = .ok () :=
    (h.of_prefix (List.take_prefix _ _) hne).validate (List.length_take_le _ _)
  refine ⟨?_, hvalid⟩
  unfold clampValidActorTypeSlug
  rw [utf8ByteSize_of_word h.word]
  split_ifs with hlong
  · have hpop : popInvalid (slug.take actorTypeMaxLen) = slug.take actorTypeMaxLen := by
      rw [popInvalid, if_neg (fun hinvalid => hinvalid.2 hvalid)]
    simp [truncate_of_word _ h.word, hpop, hvalid]
  · have htake : slug.take actorTypeMaxLen = slug := List.take_of_length_le (by omega)
    rw [htake] at hvalid ⊢
    simp [hvalid]

theorem worker_eq {appName : String} {s : List Char}
    (hslug : wasmApplicationSlugBase appName = some s) :
    wasmWorkerActorTypeFromApplicationName appName =
      clampValidActorTypeSlug (pushSuffix "_wasm".toList s) "wasm_app" := by
  rw [wasmWorkerActorTypeFromApplicationName, hslug]
  rfl

theorem root_eq {appName : String} {t : List Char}
    (hslug : wasmApplicationSlugBase appName = some t) :
    wasmRootSupervisorActorTypeFromApplicationName appName =
      clampValidActorTypeSlug
        (pushSuffix "_supervisor".toList (trimEndMatches "_wasm".toList t))
        "wasm_supervisor" := by
  rw [wasmRootSupervisorActorTypeFromApplicationName, hslug]
  simp only [Option.bind_eq_bind, Option.bind_some]
  split_ifs with hsuffix
  · rfl
  · rw [trimEndMatches_of_not_suffix hsuffix]

theorem ne_of_suffixes {xs ys : List Char} (hxs : "_wasm".toList <:+ xs)
    (hys : "_supervisor".toList <:+ ys) : xs ≠ ys := by
  rintro rfl
  have hends : "_wasm".toList <:+ "_supervisor".toList :=
    List.suffix_of_suffix_length_le hxs hys (by decide)
  revert hends
  decide

/-- Two different texts are cut to one exactly when they agree up to the cut. -/
theorem take_eq_take_iff {xs ys : List Char} (hne : xs ≠ ys) (n : Nat) :
    xs.take n = ys.take n ↔ ∃ start, start.length = n ∧ start <+: xs ∧ start <+: ys := by
  constructor
  · intro htake
    refine ⟨xs.take n, ?_, List.take_prefix _ _, htake ▸ List.take_prefix _ _⟩
    by_contra hlen
    -- a text shorter than the cut is not cut, and then neither is the other
    have hxs : xs.length < n := by
      rw [List.length_take] at hlen
      omega
    have hys : ys.length < n := by
      have hlen' := congrArg List.length htake
      rw [List.length_take, List.length_take] at hlen'
      omega
    rw [List.take_of_length_le hxs.le, List.take_of_length_le hys.le] at htake
    exact hne htake
  · rintro ⟨start, rfl, hxs, hys⟩
    rw [← List.prefix_iff_eq_take.mp hxs, ← List.prefix_iff_eq_take.mp hys]

/-- Both types are made, are valid, and are the slugs with their suffixes up to the cut. -/
theorem types_spec (worker root : String) :
    ∃ s t, wasmApplicationSlugBase worker = some s ∧ wasmApplicationSlugBase root = some t ∧
      wasmWorkerActorTypeFromApplicationName worker =
        some (String.ofList ((pushSuffix "_wasm".toList s).take actorTypeMaxLen)) ∧
      wasmRootSupervisorActorTypeFromApplicationName root =
        some (String.ofList ((pushSuffix "_supervisor".toList
          (trimEndMatches "_wasm".toList t)).take actorTypeMaxLen)) ∧
      validateActorType (String.ofList ((pushSuffix "_wasm".toList s).take actorTypeMaxLen)) =
        .ok () ∧
      validateActorType (String.ofList ((pushSuffix "_supervisor".toList
        (trimEndMatches "_wasm".toList t)).take actorTypeMaxLen)) = .ok () := by
  obtain ⟨s, hs, hsSlug⟩ := wasmApplicationSlugBase_isSlug worker
  obtain ⟨t, ht, htSlug⟩ := wasmApplicationSlugBase_isSlug root
  have hworker : IsSlug (pushSuffix "_wasm".toList s) :=
    hsSlug.pushSuffix (List.all_eq_true.mp (by decide))
  have hroot : IsSlug (pushSuffix "_supervisor".toList (trimEndMatches "_wasm".toList t)) :=
    (htSlug.trimEndMatches (by decide)).pushSuffix (List.all_eq_true.mp (by decide))
  obtain ⟨hworkerType, hworkerValid⟩ := clampValidActorTypeSlug_of_isSlug hworker "wasm_app"
  obtain ⟨hrootType, hrootValid⟩ := clampValidActorTypeSlug_of_isSlug hroot "wasm_supervisor"
  rw [← worker_eq hs] at hworkerType
  rw [← root_eq ht] at hrootType
  exact ⟨s, t, hs, ht, hworkerType, hrootType, hworkerValid, hrootValid⟩

theorem cut_eq_cut_iff (s t : List Char) :
    (pushSuffix "_wasm".toList s).take actorTypeMaxLen =
        (pushSuffix "_supervisor".toList (trimEndMatches "_wasm".toList t)).take
          actorTypeMaxLen ↔
      ∃ start, start.length = actorTypeMaxLen ∧ start <+: pushSuffix "_wasm".toList s ∧
        start <+: pushSuffix "_supervisor".toList (trimEndMatches "_wasm".toList t) :=
  take_eq_take_iff (ne_of_suffixes (suffix_pushSuffix "_wasm".toList s)
    (suffix_pushSuffix "_supervisor".toList _)) actorTypeMaxLen

theorem typesApart_of_not_agree {worker root : String} (h : ¬AgreeToLimit worker root) :
    TypesApart worker root := by
  obtain ⟨s, t, hs, ht, hworker, hroot, hworkerValid, hrootValid⟩ := types_spec worker root
  refine ⟨_, _, hworker, hroot, hworkerValid, hrootValid, ?_⟩
  intro heq
  obtain ⟨start, hstart⟩ := (cut_eq_cut_iff s t).mp (String.ofList_injective heq)
  exact h ⟨s, t, start, hs, ht, hstart⟩

theorem not_typesApart_of_agree {worker root : String} (h : AgreeToLimit worker root) :
    ¬TypesApart worker root := by
  obtain ⟨s', t', start, hs', ht', hstart⟩ := h
  obtain ⟨s, t, hs, ht, hworker, hroot, -, -⟩ := types_spec worker root
  rw [hs, Option.some.injEq] at hs'
  rw [ht, Option.some.injEq] at ht'
  rw [← hs', ← ht'] at hstart
  have hcut := (cut_eq_cut_iff s t).mpr ⟨start, hstart⟩
  rintro ⟨workerType, rootType, hw, hr, -, -, hne⟩
  rw [hworker, Option.some.injEq] at hw
  rw [hroot, Option.some.injEq] at hr
  rw [← hw, ← hr, hcut] at hne
  exact hne rfl

/-- The derived types are always valid; a worker type and a supervisor type are different
unless the slugs with their suffixes agree up to the limit. -/
theorem types_apart_iff (worker root : String) :
    TypesApart worker root ↔ ¬AgreeToLimit worker root := by
  constructor
  · intro hapart hagree
    exact not_typesApart_of_agree hagree hapart
  · exact typesApart_of_not_agree

theorem wasmApplicationSlugBase_length_le {appName : String} {slug : List Char}
    (h : wasmApplicationSlugBase appName = some slug) :
    slug.length ≤ appName.toList.length + 4 := by
  unfold wasmApplicationSlugBase at h
  have htrim : (trimMatches '_' (collapse '_' (appName.toList.map slugChar))).length ≤
      appName.toList.length := by
    have hmap := length_collapse_le '_' (appName.toList.map slugChar)
    rw [List.length_map] at hmap
    exact (length_trimMatches_le '_' _).trans hmap
  generalize trimMatches '_' (collapse '_' (appName.toList.map slugChar)) = trimmed at h htrim
  cases trimmed with
  | nil =>
      cases h
      exact Nat.le_add_left _ _
  | cons first rest =>
      simp only [List.isEmpty_cons, Bool.false_eq_true, if_false, List.head?_cons,
        Option.map_some, Option.some.injEq] at h
      rw [← h]
      split_ifs with hlower
      · rw [List.length_append]
        exact Nat.add_comm _ _ ▸ Nat.add_le_add_right htrim _
      · omega

/-- The types of names that leave room for the suffixes are kept apart. -/
theorem typesApart_of_length {worker root : String} (hworker : worker.toList.length ≤ 119)
    (hroot : root.toList.length ≤ 113) : TypesApart worker root := by
  apply typesApart_of_not_agree
  rintro ⟨s, t, start, hs, ht, hlen, hstart, hstart'⟩
  have hsize : (pushSuffix "_wasm".toList s).length ≤ actorTypeMaxLen := by
    have hslug := wasmApplicationSlugBase_length_le hs
    have hpush := length_pushSuffix_le "_wasm".toList s
    have hsuffix : "_wasm".toList.length = 5 := rfl
    unfold actorTypeMaxLen
    omega
  have hsize' : (pushSuffix "_supervisor".toList (trimEndMatches "_wasm".toList t)).length ≤
      actorTypeMaxLen := by
    have hslug := wasmApplicationSlugBase_length_le ht
    have htrim := (trimEndMatches_initial "_wasm".toList t).length_le
    have hpush := length_pushSuffix_le "_supervisor".toList (trimEndMatches "_wasm".toList t)
    have hsuffix : "_supervisor".toList.length = 11 := rfl
    unfold actorTypeMaxLen
    omega
  -- both texts are no longer than what they agree on
  have heq := hstart.eq_of_length_le (hlen ▸ hsize)
  have heq' := hstart'.eq_of_length_le (hlen ▸ hsize')
  exact ne_of_suffixes (suffix_pushSuffix "_wasm".toList s)
    (suffix_pushSuffix "_supervisor".toList _) (heq.symm.trans heq')

theorem wasmApplicationSlugBase_of_isLower {first : Char} {rest : List Char}
    (h : ∀ c ∈ first :: rest, c.isLower = true) :
    wasmApplicationSlugBase (String.ofList (first :: rest)) = some (first :: rest) := by
  have hmap : (first :: rest).map slugChar = first :: rest := by
    have hkept : ∀ c ∈ first :: rest, slugChar c = id c := by
      intro c hc
      simp [slugChar, h c hc]
    rw [List.map_congr_left hkept, List.map_id]
  have hunderscore : '_' ∉ first :: rest := by
    intro hmem
    have hlower := h _ hmem
    revert hlower
    decide
  have hcollapse : collapse '_' (first :: rest) = first :: rest := by
    apply collapse_of_not_infix
    intro hinside
    exact hunderscore (hinside.subset List.mem_cons_self)
  unfold wasmApplicationSlugBase
  rw [String.toList_ofList, hmap, hcollapse, trimMatches_of_notMem hunderscore]
  simp only [List.isEmpty_cons, Bool.false_eq_true, if_false, List.head?_cons, Option.map_some,
    h first List.mem_cons_self, Bool.not_true]

/-- The suffixes of a name of 128 letters are both cut away. -/
theorem not_types_apart : ¬∀ worker root : String, TypesApart worker root := by
  intro h
  have hlower : ∀ c ∈ List.replicate 128 'a', c.isLower = true := by
    intro c hc
    rw [List.eq_of_mem_replicate hc]
    rfl
  have hslug : wasmApplicationSlugBase (String.ofList (List.replicate 128 'a')) =
      some (List.replicate 128 'a') := wasmApplicationSlugBase_of_isLower hlower
  have hsuffix : ¬"_wasm".toList <:+ List.replicate 128 'a' := by
    intro hsuffix
    have hmem := List.eq_of_mem_replicate (hsuffix.subset List.mem_cons_self)
    revert hmem
    decide
  refine not_typesApart_of_agree ⟨_, _, List.replicate 128 'a', hslug, hslug,
    List.length_replicate, prefix_pushSuffix _ _, ?_⟩ (h _ _)
  rw [trimEndMatches_of_not_suffix hsuffix]
  exact prefix_pushSuffix _ _

end PlexSpaces.Actors
