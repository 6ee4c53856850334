import PlexSpaces.KeyValue.Sqlite
/-!
# Operations on a prefix

The prefix becomes a pattern of `LIKE` as it is.  Every key that begins with the
prefix matches the pattern; a wildcard in the prefix, or a letter whose case
SQLite ignores, lets other keys match it too.
-/

namespace PlexSpaces.KeyValue

open PlexSpaces.Lib

def Begins (keyPrefix key : String) : Prop := keyPrefix.toList <+: key.toList

instance (keyPrefix key : String) : Decidable (Begins keyPrefix key) :=
  inferInstanceAs (Decidable (keyPrefix.toList <+: key.toList))

section Pattern

variable {keyPrefix key : String}

theorem likePrefix_iff : likePrefix keyPrefix key = true ↔
    ∃ x y, key.toList = x ++ y ∧ Journaling.sqlite.like keyPrefix.toList x = true := by
  have hpattern : (keyPrefix ++ "%").toList = keyPrefix.toList ++ [Journaling.sqlite.any] :=
    String.toList_append
  rw [likePrefix, hpattern, LikeSyntax.like_append_iff rfl]
  constructor
  · rintro ⟨x, y, hkey, hx, -⟩
    exact ⟨x, y, hkey, hx⟩
  · rintro ⟨x, y, hkey, hx⟩
    exact ⟨x, y, hkey, hx, LikeSyntax.like_any y⟩

theorem likePrefix_of_begins (h : Begins keyPrefix key) : likePrefix keyPrefix key = true := by
  obtain ⟨y, hkey⟩ := h
  exact likePrefix_iff.mpr ⟨_, y, hkey.symm, LikeSyntax.like_self rfl _⟩

/-- A letter that stands for itself alone in a pattern. -/
def Plain (c : Char) : Prop := c ≠ '%' ∧ c ≠ '_' ∧ c.isAlpha = false

theorem Plain.ordinary {c : Char} (h : Plain c) : Journaling.sqlite.Ordinary c :=
  ⟨h.1, h.2.1, Option.some_ne_none c,
    fun _ hsame => Journaling.Tables.eq_of_toLower_eq h.2.2 (beq_iff_eq.mp hsame)⟩

theorem exists_other_of_not_plain {c : Char} (h : ¬Plain c) :
    ∃ c', c' ≠ c ∧ Journaling.sqlite.like [c] [c'] = true := by
  by_cases hany : c = '%'
  · exact ⟨'a', by rw [hany]; decide, by rw [hany]; exact LikeSyntax.like_any _⟩
  by_cases hone : c = '_'
  · exact ⟨'a', by rw [hone]; decide, by rw [hone]; rfl⟩
  have halpha : c.isAlpha = true := by
    by_contra hnot
    exact h ⟨hany, hone, Bool.eq_false_iff.mpr hnot⟩
  have hmatch : ∀ {c' : Char}, c.toLower = c'.toLower →
      Journaling.sqlite.like [c] [c'] = true := by
    intro c' hsame
    have htoken : Journaling.sqlite.token c = .lit c := (if_neg hany).trans (if_neg hone)
    rw [LikeSyntax.like, LikeSyntax.tokens_cons (Option.some_ne_none c), htoken]
    exact likeTokens_lit_iff.mpr ⟨c', [], rfl, beq_iff_eq.mpr hsame, rfl⟩
  by_cases hupper : c.isUpper = true
  · refine ⟨c.toLower, fun heq => ?_, hmatch (Char.toLower_toLower_eq_toLower c).symm⟩
    rw [← heq, Char.isUpper_toLower_eq_false] at hupper
    cases hupper
  · have hlower : c.isLower = true := by
      rw [Char.isAlpha, Bool.eq_false_iff.mpr hupper, Bool.false_or] at halpha
      exact halpha
    refine ⟨c.toUpper, fun heq => ?_, hmatch (Char.toLower_toUpper_eq_toLower c).symm⟩
    rw [← heq, Char.isLower_toUpper_eq_false] at hlower
    cases hlower

/-- Only the keys that begin with the prefix match it exactly if its letters are plain. -/
theorem plain_iff : (∀ c ∈ keyPrefix.toList, Plain c) ↔
    ∀ key, likePrefix keyPrefix key = true → Begins keyPrefix key := by
  constructor
  · intro hplain key hmatch
    obtain ⟨x, y, hkey, hx⟩ := likePrefix_iff.mp hmatch
    rw [LikeSyntax.like_iff_eq_of_ordinary fun c hc => (hplain c hc).ordinary] at hx
    exact ⟨y, by rw [hkey, hx]⟩
  · intro hmatch c hc
    by_contra hnot
    obtain ⟨c', hne, hother⟩ := exists_other_of_not_plain hnot
    obtain ⟨x, y, hsplit⟩ := List.append_of_mem hc
    have hlike : Journaling.sqlite.like keyPrefix.toList (x ++ c' :: y) = true := by
      rw [hsplit, LikeSyntax.like_append_iff rfl]
      refine ⟨x, c' :: y, rfl, LikeSyntax.like_self rfl x, ?_⟩
      rw [← List.singleton_append, LikeSyntax.like_append_iff rfl]
      exact ⟨[c'], y, rfl, hother, LikeSyntax.like_self rfl y⟩
    have hbegins := hmatch (String.ofList (x ++ c' :: y)) <|
      likePrefix_iff.mpr ⟨_, [], by rw [String.toList_ofList, List.append_nil], hlike⟩
    rw [Begins, String.toList_ofList, hsplit] at hbegins
    have hsame := hbegins.eq_of_length (by rw [List.length_append, List.length_append]; rfl)
    exact hne (List.cons.inj (List.append_cancel_left hsame)).1.symm

end Pattern

/-! ## What the operations reach -/

section Exact

variable {ctx : RequestContext} {now : Int} {db : KvTable} {keyPrefix : String}

/-- The rows that a prefix operation looks at: live ones of the tenant and the namespace (of
every namespace, for an internal caller without one), and those that it may delete. -/
def Reaches (ctx : RequestContext) (now : Int) (row : KvRow) : Prop :=
  (ctx.sees row = true ∧ row.live now = true) ∨ ctx.owns row = true

/-- `list`, `count_prefix` and `clear_prefix` concern the keys that begin with the prefix. -/
structure PrefixExact (ctx : RequestContext) (now : Int) (db : KvTable) (keyPrefix : String) :
    Prop where
  list : list ctx now db keyPrefix =
    (db.select fun row => ctx.sees row && decide (Begins keyPrefix row.key) && row.live now).map
      (·.key)
  count : countPrefix ctx now db keyPrefix = (db.select fun row =>
    ctx.sees row && decide (Begins keyPrefix row.key) && row.live now).length
  cleared : ∀ row ∈ db.rows, row ∉ (clearPrefix ctx db keyPrefix).table.rows →
    Begins keyPrefix row.key
  number : (clearPrefix ctx db keyPrefix).result =
    .ok (db.rows.length - (clearPrefix ctx db keyPrefix).table.rows.length)

theorem mem_clearPrefix {row : KvRow} : row ∈ (clearPrefix ctx db keyPrefix).table.rows ↔
    row ∈ db.rows ∧ ¬(ctx.owns row = true ∧ likePrefix keyPrefix row.key = true) := by
  rw [clearPrefix, Table.deleteWhere, List.mem_filter, Bool.not_eq_true', Bool.and_eq_false_iff,
    not_and_or, Bool.not_eq_true, Bool.not_eq_true]

theorem clearPrefix_number : (clearPrefix ctx db keyPrefix).result =
    .ok (db.rows.length - (clearPrefix ctx db keyPrefix).table.rows.length) := by
  have hsplit := List.length_eq_length_filter_add (l := db.rows)
    fun row : KvRow => ctx.owns row && likePrefix keyPrefix row.key
  rw [clearPrefix, Table.select, Table.deleteWhere]
  dsimp only
  rw [hsplit, Nat.add_sub_cancel]

theorem PrefixExact.begins (h : PrefixExact ctx now db keyPrefix) :
    ∀ row ∈ db.rows, Reaches ctx now row → likePrefix keyPrefix row.key = true →
      Begins keyPrefix row.key := by
  rintro row hrow (⟨hsees, hlive⟩ | howns) hmatch
  · -- as many rows are listed as begin with the prefix, and these are among them
    have hsub : (db.select fun row =>
        ctx.sees row && decide (Begins keyPrefix row.key) && row.live now).Sublist
        (db.select fun row => ctx.sees row && likePrefix keyPrefix row.key && row.live now) := by
      refine List.monotone_filter_right db.rows fun row hboth => ?_
      rw [Bool.and_eq_true, Bool.and_eq_true, decide_eq_true_iff] at hboth
      rw [hboth.1.1, likePrefix_of_begins hboth.1.2, hboth.2]
      rfl
    have hsame := hsub.eq_of_length h.count.symm
    have hmem : row ∈ db.select fun row =>
        ctx.sees row && likePrefix keyPrefix row.key && row.live now :=
      List.mem_filter.mpr ⟨hrow, by rw [hsees, hmatch, hlive]; rfl⟩
    rw [← hsame] at hmem
    have hboth := (List.mem_filter.mp hmem).2
    rw [Bool.and_eq_true, Bool.and_eq_true, decide_eq_true_iff] at hboth
    exact hboth.1.2
  · exact h.cleared row hrow fun hkept => (mem_clearPrefix.mp hkept).2 ⟨howns, hmatch⟩

theorem prefixExact_of_begins (h : ∀ row ∈ db.rows, Reaches ctx now row →
    likePrefix keyPrefix row.key = true → Begins keyPrefix row.key) :
    PrefixExact ctx now db keyPrefix := by
  have hselect : (db.select fun row =>
      ctx.sees row && likePrefix keyPrefix row.key && row.live now) =
      db.select fun row =>
        ctx.sees row && decide (Begins keyPrefix row.key) && row.live now := by
    refine List.filter_congr fun row hrow => ?_
    cases hsees : ctx.sees row with
    | false => rfl
    | true =>
        cases hlive : row.live now with
        | false => rw [Bool.and_false, Bool.and_false]
        | true =>
            have hiff : likePrefix keyPrefix row.key = true ↔ Begins keyPrefix row.key :=
              ⟨h row hrow (.inl ⟨hsees, hlive⟩), likePrefix_of_begins⟩
            rw [Bool.eq_iff_iff.mpr (hiff.trans decide_eq_true_iff.symm)]
  refine ⟨congrArg (List.map KvRow.key) hselect, congrArg List.length hselect, ?_,
    clearPrefix_number⟩
  intro row hrow hcleared
  rw [mem_clearPrefix, not_and_not_right] at hcleared
  obtain ⟨howns, hmatch⟩ := hcleared hrow
  exact h row hrow (.inr howns) hmatch

end Exact

/-- On a store, the operations concern exactly the prefix when no other key that they reach
matches it; on every store, when the prefix has no wildcard and no letter. -/
theorem prefix_operations_exact_iff (keyPrefix : String) :
    (∀ ctx now db, PrefixExact ctx now db keyPrefix ↔ ∀ row ∈ db.rows, Reaches ctx now row →
      likePrefix keyPrefix row.key = true → Begins keyPrefix row.key) ∧
    ((∀ ctx now db, PrefixExact ctx now db keyPrefix) ↔ ∀ c ∈ keyPrefix.toList, Plain c) := by
  refine ⟨fun ctx now db => ⟨PrefixExact.begins, prefixExact_of_begins⟩, ?_⟩
  rw [plain_iff]
  constructor
  · intro h key hmatch
    let row : KvRow := ⟨"t", "n", key, [], none⟩
    have hexact := h { tenantId := "t", nsName := "n" } 0 ⟨[row], List.nodup_singleton _⟩
    exact hexact.begins row List.mem_cons_self (.inr rfl) hmatch
  · intro h ctx now db
    exact prefixExact_of_begins fun row _ _ hmatch => h row.key hmatch

/-- A prefix with an underscore takes the keys of others. -/
theorem not_prefix_operations_exact : ¬∀ ctx now db keyPrefix,
    PrefixExact ctx now db keyPrefix := by
  intro h
  let row : KvRow := ⟨"t", "n", "users", [], none⟩
  have hexact := h { tenantId := "t", nsName := "n" } 0 ⟨[row], List.nodup_singleton _⟩ "user_"
  exact absurd (hexact.begins row List.mem_cons_self (.inr rfl) (by decide)) (by decide)

end PlexSpaces.KeyValue
