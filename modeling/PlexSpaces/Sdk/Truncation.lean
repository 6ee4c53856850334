import PlexSpaces.Sdk.Survival
/-!
# Truncated messages

A decoder should not take a message for complete of which a part is missing.  The
Go decoder checks the end of each length-delimited field, the TypeScript decoder
that of each field it reads, the Python decoder none.  A walk through the bytes,
which knows only the wire format and these checks, tells for which bytes this does
no harm.
-/

namespace PlexSpaces.Sdk

open PlexSpaces.Lib

inductive Language where
  | python
  | typeScript
  | go
  deriving DecidableEq

@[reducible] def Language.Text : Language → Type
  | .python | .typeScript => String
  | .go => Bytes

def Language.dialect : (language : Language) → Dialect language.Text
  | .python => Sdk.python
  | .typeScript => Sdk.typeScript
  | .go => Sdk.go

def Language.decode (language : Language) (fuel : Nat) (data : Bytes) :
    Decoding (List (List (Value language.Text))) :=
  language.dialect.parseReadResponseTuples fuel data

def Event.Inside : Event → Prop
  | .length _ _ start ln size => start + ln ≤ size
  | _ => True

/-! ## Decoding that succeeds -/

namespace Decoding

variable {α β : Type}

theorem result_bind {p : Decoding α} {f : α → Decoding β} {b : β}
    (h : (p >>= f).result = .ok b) : ∃ a, p.result = .ok a ∧ (f a).result = .ok b := by
  cases hresult : p.result with
  | error e =>
      rw [bind_of_error hresult] at h
      cases h
  | ok a =>
      rw [bind_of_ok hresult] at h
      exact ⟨a, rfl, h⟩

theorem result_bind_of_ok {p : Decoding α} {a : α} (h : p.result = .ok a)
    (f : α → Decoding β) : (p >>= f).result = (f a).result := by rw [bind_of_ok h]

/-- Where it succeeds, everything that was met is good. -/
def OkAll (good : Event → Prop) (p : Decoding α) : Prop :=
  ∀ a, p.result = .ok a → p.All good

end Decoding

section Read

variable {T : Type} {D : Dialect T} {data : Bytes} {pos : Int}

theorem lengthDelimited_ok {message : String} {sub : Bytes} {stop : Int}
    (h : (D.lengthDelimited data pos message).result = .ok (sub, stop)) :
    ∃ ln n, (D.readVarint data pos).result = .ok (ln, n) ∧ stop = D.endOf (pos + n) ln ∧
      (D.checksRead = true → stop ≤ data.length) ∧ pos + n ≤ stop ∧
      sub = (data.drop (pos + n).toNat).take (stop - (pos + n)).toNat := by
  cases hresult : (D.readVarint data pos).result with
  | error e =>
      rw [lengthDelimited_of_error hresult] at h
      cases h
  | ok read =>
      obtain ⟨ln, n⟩ := read
      rw [lengthDelimited_of_ok hresult] at h
      split_ifs at h with hover hback
      cases h
      refine ⟨ln, n, rfl, rfl, fun hchecks => ?_, Int.not_lt.mp hback, rfl⟩
      exact Int.not_lt.mp fun hless => hover ⟨hchecks, hless⟩

theorem lengthDelimited_sub {message : String} {sub : Bytes} {stop : Int}
    (h : (D.lengthDelimited data pos message).result = .ok (sub, stop)) :
    sub.length ≤ data.length := by
  obtain ⟨ln, n, -, -, -, -, rfl⟩ := lengthDelimited_ok h
  rw [List.length_take, List.length_drop]
  omega

end Read

/-! ## A walk through the bytes -/

/-- A walk gives up, or it gets on; then it knows whether every length-delimited field that it
passed lay in its message. -/
def Walk (β : Type) := Option (Bool × β)

namespace Walk

variable {β γ : Type}

protected def pure (b : β) : Walk β := some (true, b)

protected def bind (w : Walk β) (f : β → Walk γ) : Walk γ :=
  match w with
  | none => none
  | some (inside, b) =>
      match f b with
      | none => none
      | some (inside', c) => some (inside && inside', c)

instance : Monad Walk where
  pure := Walk.pure
  bind := Walk.bind

def giveUp : Walk β := none

/-- On behind a field that does not lie in its message. -/
def outside (b : β) : Walk β := some (false, b)

/-- It gets to its end past a field that did not lie in its message. -/
def Overruns (w : Walk β) : Prop := ∃ b, w = outside b

end Walk

namespace Language

variable (language : Language)

def kept (n : Nat) : Nat :=
  match language with
  | .python | .typeScript => n
  | .go => n % 2 ^ 64

/-- A number of at most ten bytes, and how many it has. -/
def number (data : Bytes) (pos : Int) : Walk (Nat × Nat) :=
  if pos < 0 then .giveUp
  else
    match Varint.decode 10 (data.drop pos.toNat) with
    | .error _ => .giveUp
    | .ok (n, size) => pure (language.kept n, size)

/-- Past the end of a message, to the end of a field that is longer than what is left.  Where the
end is checked there is no way on.  Python checks no end, TypeScript none of a field that is
skipped; Go goes back after the end of a skipped one that is no `int`. -/
def pastEnd (skipped : Bool) (stop : Int) : Walk Int :=
  match language with
  | .python => .outside stop
  | .typeScript => if skipped then .outside stop else .giveUp
  | .go => if skipped ∧ 2 ^ 63 ≤ stop then .outside (stop - 2 ^ 64) else .giveUp

/-- Past the `ln` bytes of a field that begins at a position of a message of `size` bytes. -/
def pastField (skipped : Bool) (size : Nat) (start : Int) (ln : Nat) : Walk Int :=
  if start + ln ≤ size then pure (start + ln) else language.pastEnd skipped (start + ln)

/-- Past a number of fixed size, which Python does not check. -/
def pastFixed (size : Nat) (pos : Int) (bytes : Nat) : Walk Int :=
  if language ≠ .python ∧ size < pos + bytes then .giveUp else pure (pos + bytes)

def pastNumber (data : Bytes) (pos : Int) : Walk Int := do
  let (_, n) ← language.number data pos
  return pos + n

def pastSkipped (data : Bytes) (pos : Int) (wireType : Nat) : Walk Int :=
  match wireType with
  | 0 => language.pastNumber data pos
  | 1 => language.pastFixed data.length pos 8
  | 2 => do
      let (ln, n) ← language.number data pos
      language.pastField true data.length (pos + n) ln
  | 5 => language.pastFixed data.length pos 4
  | _ => .giveUp

/-- The bytes of a length-delimited field, as far as they are there, and its end. -/
def subMessage (data : Bytes) (pos : Int) : Walk (Bytes × Int) := do
  let (ln, n) ← language.number data pos
  let stop ← language.pastField false data.length (pos + n) ln
  return ((data.drop (pos + n).toNat).take ln, stop)

/-- Through the fields of a message, each behind its tag. -/
def walkFields (data : Bytes) (past : Nat → Nat → Int → Walk Int) : Nat → Int → Walk Unit
  | 0, pos => if pos < data.length then .giveUp else pure ()
  | rounds + 1, pos =>
      if pos < data.length then do
        let (tag, n) ← language.number data pos
        let next ← past (tag / 8) (tag % 8) (pos + n)
        walkFields data past rounds next
      else pure ()

/-- Past a field of a value: a double is checked in each language. -/
def pastValueField (msg : Bytes) (wireType : Nat) (pos : Int) : Walk Int :=
  match wireType with
  | 1 => if msg.length < pos + 8 then .giveUp else pure (pos + 8)
  | 2 => do
      let (_, stop) ← language.subMessage msg pos
      return stop
  | _ => language.pastSkipped msg pos wireType

def pastRepeated (through : Bytes → Walk Unit) (msg : Bytes) (fieldNum wireType : Nat)
    (pos : Int) : Walk Int :=
  if fieldNum = 2 ∧ wireType = 2 then do
    let (sub, stop) ← language.subMessage msg pos
    through sub
    return stop
  else language.pastSkipped msg pos wireType

/-- Through a ReadResponse message, its tuples and their values. -/
def walk (rounds : Nat) (data : Bytes) : Walk Unit :=
  let value msg := language.walkFields msg (fun _ => language.pastValueField msg) rounds 0
  let tuple msg := language.walkFields msg (language.pastRepeated value msg) rounds 0
  language.walkFields data (language.pastRepeated tuple data) rounds 0

end Language

/-! ## What a walk finds -/

section Walked

open Decoding

variable {α β γ δ : Type}

/-- Where a decoder has no result the walk gives up, and else it stands where the decoder does and
knows whether the fields that were met lie in their messages. -/
def Walked (p : Decoding α) (seen : α → β) : Walk β → Prop
  | none => ∀ a, p.result ≠ .ok a
  | some (inside, b) => ∃ a, p.result = .ok a ∧ seen a = b ∧
      (p.All Event.Inside ↔ inside = true)

variable {p : Decoding α} {seen : α → β} {w : Walk β}

theorem walked_pure (a : α) (seen : α → β) : Walked (pure a) seen (pure (seen a)) :=
  ⟨a, rfl, rfl, iff_of_true nofun rfl⟩

theorem walked_throw (e : Fault) : Walked (throw e : Decoding α) seen .giveUp := nofun

theorem walked_bind {f : α → Decoding γ} {g : β → Walk δ} {seen' : γ → δ} (hp : Walked p seen w)
    (hf : ∀ a, p.result = .ok a → Walked (f a) seen' (g (seen a))) :
    Walked (p >>= f) seen' (w >>= g) := by
  change Walked _ _ (Walk.bind w g)
  cases w with
  | none =>
      intro c hc
      obtain ⟨a, ha, -⟩ := result_bind hc
      exact hp a ha
  | some passed =>
      obtain ⟨inside, b⟩ := passed
      obtain ⟨a, ha, rfl, hinside⟩ := hp
      have hrest := hf a ha
      rw [Walk.bind]
      cases hg : g (seen a) with
      | none =>
          rw [hg] at hrest
          intro c hc
          rw [result_bind_of_ok ha] at hc
          exact hrest c hc
      | some passed =>
          obtain ⟨inside', d⟩ := passed
          rw [hg] at hrest
          obtain ⟨c, hc, rfl, hinside'⟩ := hrest
          refine ⟨c, (result_bind_of_ok ha f).trans hc, rfl, ?_⟩
          rw [all_bind_of_ok ha, hinside, hinside', Bool.and_eq_true]

theorem walked_step {f : Unit → Decoding α} (h : Walked (f ()) seen w) (pos next : Int) :
    Walked (note (.step pos next) >>= f) seen w := by
  have hall : (note (.step pos next) >>= f).All Event.Inside ↔ (f ()).All Event.Inside := by
    rw [all_bind_of_ok rfl]
    refine and_iff_right fun e he => ?_
    rw [List.mem_singleton.mp he]
    trivial
  cases w with
  | none => exact h
  | some passed =>
      obtain ⟨a, ha, hseen, hinside⟩ := h
      exact ⟨a, ha, hseen, hall.trans hinside⟩

theorem Walk.bind_pure (w : Walk β) : (w >>= fun b => pure b) = w := by
  change Walk.bind w Walk.pure = w
  cases w with
  | none => rfl
  | some passed => exact congrArg (fun inside => some (inside, passed.2)) (Bool.and_true passed.1)

theorem Walk.pure_bind (b : β) (f : β → Walk γ) : (pure b >>= f) = f b := by
  change Walk.bind (Walk.pure b) f = f b
  rw [Walk.pure, Walk.bind]
  cases f b with
  | none => rfl
  | some passed => rfl

theorem walked_return {f : α → γ} {seen' : γ → β} (hp : Walked p seen w)
    (hf : ∀ a, seen' (f a) = seen a) : Walked (p >>= fun a => pure (f a)) seen' w := by
  rw [← Walk.bind_pure w]
  refine walked_bind hp fun a _ => ?_
  rw [← hf a]
  exact walked_pure (f a) seen'

variable {language : Language} {data : Bytes} {pos : Int}

theorem walked_readVarint (language : Language) (data : Bytes) (pos : Int) :
    Walked (language.dialect.readVarint data pos) id (language.number data pos) := by
  rw [Dialect.readVarint, Language.number]
  split_ifs with hneg
  · exact walked_throw _
  · cases Varint.decode 10 (data.drop pos.toNat) with
    | error bad => cases bad <;> exact walked_throw _
    | ok read => cases language <;> exact walked_pure _ id

theorem number_of_error {e : Fault} (h : (language.dialect.readVarint data pos).result = .error e) :
    language.number data pos = .giveUp := by
  have hwalked := walked_readVarint language data pos
  cases hnumber : language.number data pos with
  | none => rfl
  | some passed =>
      rw [hnumber] at hwalked
      obtain ⟨a, ha, -⟩ := hwalked
      rw [h] at ha
      cases ha

theorem number_of_ok {read : Nat × Nat}
    (h : (language.dialect.readVarint data pos).result = .ok read) :
    language.number data pos = pure read := by
  have hwalked := walked_readVarint language data pos
  cases hnumber : language.number data pos with
  | none =>
      rw [hnumber] at hwalked
      exact absurd h (hwalked read)
  | some passed =>
      rw [hnumber] at hwalked
      obtain ⟨a, ha, hseen, hinside⟩ := hwalked
      cases h.symm.trans ha
      refine congrArg some (Prod.ext (hinside.mp fun e he => ?_) hseen.symm)
      rw [readVarint_met] at he
      cases he

theorem walked_skipFixed (language : Language) (data : Bytes) (pos : Int) (size : Nat)
    (message : String) : Walked (language.dialect.skipFixed data pos size message) id
      (language.pastFixed data.length pos size) := by
  have hchecks : language.dialect.checksFixed = true ↔ language ≠ .python := by
    cases language <;> decide
  rw [Dialect.skipFixed, Language.pastFixed]
  simp only [hchecks]
  split_ifs
  · exact walked_throw _
  · exact walked_pure _ id

/-- A field that lies in its message ends where its length says. -/
theorem endOf_of_inside {ln n : Nat} (hsize : data.length < 2 ^ 63)
    (h : (language.dialect.readVarint data pos).result = .ok (ln, n))
    (hinside : pos + n + ln ≤ data.length) :
    language.dialect.endOf (pos + n) ln = pos + n + ln := by
  cases language with
  | python => rfl
  | typeScript => rfl
  | go => exact (go_endOf hsize h).trans (if_pos (by omega))

theorem walked_lengthDelimited (hsize : data.length < 2 ^ 63) (pos : Int) (message : String) :
    Walked (language.dialect.lengthDelimited data pos message) id
      (language.subMessage data pos) := by
  rw [Language.subMessage]
  cases hresult : (language.dialect.readVarint data pos).result with
  | error e =>
      rw [lengthDelimited_of_error hresult, number_of_error hresult]
      exact nofun
  | ok read =>
      obtain ⟨ln, n⟩ := read
      rw [lengthDelimited_of_ok hresult, number_of_ok hresult, Walk.pure_bind]
      dsimp only
      rw [Language.pastField]
      by_cases hinside : pos + n + ln ≤ data.length
      · rw [endOf_of_inside hsize hresult hinside, if_pos hinside]
        rw [if_neg fun hover => by omega, if_neg (by omega)]
        refine ⟨_, rfl, ?_, iff_of_true (fun e he => ?_) rfl⟩
        · simp
        · obtain rfl | rfl := List.mem_pair.mp he
          · exact hinside
          · trivial
      · rw [if_neg hinside]
        cases language with
        | python =>
            have hend : Language.python.dialect.endOf (pos + n) ln = pos + n + ln := rfl
            rw [if_neg nofun, hend, if_neg (by omega)]
            refine ⟨_, rfl, ?_, iff_of_false (fun hall => ?_) nofun⟩
            · simp
            · exact hinside (hall _ List.mem_cons_self)
        | typeScript =>
            rw [if_pos ⟨rfl, Int.not_le.mp hinside⟩]
            exact nofun
        | go =>
            have hlength := go_length_lt hresult
            rw [Language.dialect, go_endOf hsize hresult]
            by_cases hfits : pos + n + ln < 2 ^ 63
            · rw [if_pos hfits, if_pos ⟨rfl, Int.not_le.mp hinside⟩]
              exact nofun
            · have hback : pos + n + ln - 2 ^ 64 < pos + n := by omega
              rw [if_neg hfits, if_pos hback]
              split_ifs <;> exact nofun

theorem walked_skipLengthDelimited (hsize : data.length < 2 ^ 63) (pos : Int) :
    Walked (language.dialect.skipField data pos 2) id (language.pastSkipped data pos 2) := by
  rw [Language.pastSkipped]
  cases hresult : (language.dialect.readVarint data pos).result with
  | error e =>
      rw [skipField_of_error hresult, number_of_error hresult]
      exact nofun
  | ok read =>
      obtain ⟨ln, n⟩ := read
      rw [skipField_of_ok hresult, number_of_ok hresult, Walk.pure_bind]
      dsimp only
      rw [Language.pastField]
      have hmet : ∀ stop, Decoding.All Event.Inside ⟨[.length true pos (pos + n) ln data.length,
          .step pos stop], (.ok stop : Except Fault Int)⟩ ↔ pos + n + ln ≤ data.length :=
        fun stop => ⟨fun hall => hall _ List.mem_cons_self, fun hinside e he => by
          obtain rfl | rfl := List.mem_pair.mp he
          · exact hinside
          · trivial⟩
      by_cases hinside : pos + n + ln ≤ data.length
      · rw [endOf_of_inside hsize hresult hinside, if_pos hinside,
          if_neg fun hover => Int.not_lt.mpr hinside hover.2]
        exact ⟨_, rfl, rfl, iff_of_true ((hmet _).mpr hinside) rfl⟩
      · have hpassed : ∀ stop, Walked ⟨[.length true pos (pos + n) ln data.length,
            .step pos stop], .ok stop⟩ id (.outside stop) := fun stop =>
          ⟨stop, rfl, rfl, iff_of_false (fun hall => hinside ((hmet stop).mp hall)) nofun⟩
        rw [if_neg hinside]
        cases language with
        | python => exact hpassed _
        | typeScript => exact hpassed _
        | go =>
            rw [Language.dialect, go_endOf hsize hresult]
            by_cases hfits : pos + n + ln < 2 ^ 63
            · rw [if_pos hfits, if_pos ⟨rfl, Int.not_le.mp hinside⟩, Language.pastEnd,
                if_neg fun hover => Int.not_le.mpr hfits hover.2]
              exact nofun
            · have hlength := go_length_lt hresult
              obtain ⟨-, -, -, hend, -⟩ := readVarint_ok hresult
              rw [if_neg hfits, if_neg (by omega), Language.pastEnd,
                if_pos ⟨rfl, Int.not_lt.mp hfits⟩]
              exact hpassed _

theorem walked_skipField (hsize : data.length < 2 ^ 63) (pos : Int) (wireType : Nat) :
    Walked (language.dialect.skipField data pos wireType) id
      (language.pastSkipped data pos wireType) := by
  have hbehind : ∀ {p : Decoding Int} {w : Walk Int}, Walked p id w →
      Walked (p >>= fun next => note (.step pos next) >>= fun _ => pure next) id w := by
    intro p w hp
    rw [← Walk.bind_pure w]
    exact walked_bind hp fun next _ => walked_step (walked_pure next id) pos next
  have hnumber : Walked (language.dialect.skipVarint data pos) id
      (language.pastNumber data pos) :=
    walked_bind (walked_readVarint language data pos) fun read _ => walked_pure (pos + read.2) id
  match wireType with
  | 0 => exact hbehind hnumber
  | 1 => exact hbehind (walked_skipFixed language data pos 8 _)
  | 2 => exact walked_skipLengthDelimited hsize pos
  | 3 | 4 => exact hbehind (walked_throw _)
  | 5 => exact hbehind (walked_skipFixed language data pos 4 _)
  | _ + 6 => exact hbehind (walked_throw _)

variable {T : Type}

theorem walked_eachField {field : Nat → Nat → Int → α → Decoding (Int × α)}
    {past : Nat → Nat → Int → Walk Int}
    (h : ∀ fieldNum wireType pos acc,
      Walked (field fieldNum wireType pos acc) (·.1) (past fieldNum wireType pos))
    (rounds : Nat) (pos : Int) (acc : α) :
    Walked (language.dialect.eachField data field rounds pos acc) (fun _ => ())
      (language.walkFields data past rounds pos) := by
  induction rounds generalizing pos acc with
  | zero =>
      rw [Dialect.eachField, Language.walkFields]
      split_ifs
      · exact walked_throw _
      · exact walked_pure acc _
  | succ rounds ih =>
      rw [Dialect.eachField, Language.walkFields]
      split_ifs
      · refine walked_bind (walked_readVarint language data pos) fun read _ => ?_
        obtain ⟨tag, n⟩ := read
        have hfield := h (tag >>> 3) (tag % 8) (pos + n) acc
        rw [Nat.shiftRight_eq_div_pow] at hfield
        dsimp only [id]
        rw [Nat.shiftRight_eq_div_pow]
        exact walked_bind hfield fun next _ => walked_step (ih next.1 next.2) _ _
      · exact walked_pure acc _

theorem walked_valueField {msg : Bytes} (hsize : msg.length < 2 ^ 63) (fieldNum wireType : Nat)
    (pos : Int) (last : Value language.Text) :
    Walked (language.dialect.valueField msg fieldNum wireType pos last) (·.1)
      (language.pastValueField msg wireType pos) := by
  match wireType with
  | 0 => exact walked_bind (walked_readVarint language msg pos) fun read _ => walked_pure _ _
  | 1 =>
      rw [Dialect.valueField, Language.pastValueField]
      split_ifs
      · exact walked_throw _
      all_goals exact walked_pure _ _
  | 2 =>
      exact walked_bind (walked_lengthDelimited hsize pos _) fun read _ => walked_pure _ _
  | wireType + 3 => exact walked_return (walked_skipField hsize pos _) fun _ => rfl

theorem walked_repeatedField {msg : Bytes} (hsize : msg.length < 2 ^ 63) (message : String)
    {parse : Bytes → Decoding α} {through : Bytes → Walk Unit}
    (h : ∀ sub : Bytes, sub.length ≤ msg.length → Walked (parse sub) (fun _ => ()) (through sub))
    (fieldNum wireType : Nat) (pos : Int) (parsed : List α) :
    Walked (language.dialect.repeatedField msg message parse fieldNum wireType pos parsed) (·.1)
      (language.pastRepeated through msg fieldNum wireType pos) := by
  rw [Dialect.repeatedField, Language.pastRepeated]
  split_ifs
  · refine walked_bind (walked_lengthDelimited hsize pos message) fun read hread => ?_
    exact walked_bind (h read.1 (lengthDelimited_sub hread)) fun _ _ => walked_pure _ _
  · exact walked_return (walked_skipField hsize pos wireType) fun _ => rfl

theorem walked_decode (hsize : data.length < 2 ^ 63) (rounds : Nat) :
    Walked (language.decode rounds data) (fun _ => ()) (language.walk rounds data) := by
  refine walked_eachField (walked_repeatedField hsize _ fun msg hmsg => ?_) rounds 0 []
  have hmsgSize := hmsg.trans_lt hsize
  refine walked_eachField (walked_repeatedField hmsgSize _ fun sub hsub => ?_) rounds 0 []
  exact walked_eachField (walked_valueField (hsub.trans_lt hmsgSize)) rounds 0 _

theorem Walked.okAll_iff (h : Walked p seen w) : OkAll Event.Inside p ↔ ¬w.Overruns := by
  cases w with
  | none => exact iff_of_true (fun a ha => absurd ha (h a)) nofun
  | some passed =>
      obtain ⟨inside, b⟩ := passed
      obtain ⟨a, ha, -, hinside⟩ := h
      constructor
      · rintro hall ⟨b', hb'⟩
        cases hb'
        exact absurd (hinside.mp (hall a ha)) nofun
      · intro hnot a' ha'
        cases ha.symm.trans ha'
        refine hinside.mpr ?_
        cases inside with
        | true => rfl
        | false => exact absurd ⟨b, rfl⟩ hnot

end Walked

/-! ## A message and a longer one -/

/-- Where the first one succeeds and its fields lie in their messages, the second one has the
same result. -/
def Continues {α : Type} (p q : Decoding α) : Prop :=
  ∀ a, p.result = .ok a → p.All Event.Inside → q.result = .ok a

section Continues

open Decoding

variable {T α β : Type} {D : Dialect T} {data : Bytes} {pos : Int}

theorem continues_refl (p : Decoding α) : Continues p p := fun _ h _ => h

theorem continues_bind {p q : Decoding α} {f g : α → Decoding β} (h : Continues p q)
    (hfg : ∀ a, p.result = .ok a → Continues (f a) (g a)) :
    Continues (p >>= f) (q >>= g) := by
  intro b hb hall
  cases hresult : p.result with
  | error e =>
      rw [bind_of_error hresult] at hb
      cases hb
  | ok a =>
      rw [all_bind_of_ok hresult] at hall
      rw [bind_of_ok hresult] at hb
      rw [bind_of_ok (h a hresult hall.1)]
      exact hfg a hresult b hb hall.2

theorem continues_readVarint (data rest : Bytes) (pos : Int) :
    Continues (D.readVarint data pos) (D.readVarint (data ++ rest) pos) := by
  rintro ⟨v, n⟩ hok -
  obtain ⟨hpos, -, -, hend, number, hdecode, rfl⟩ := readVarint_ok hok
  rw [Dialect.readVarint, if_neg (Int.not_lt.mpr hpos),
    List.drop_append_of_le_length (by omega), Varint.decode_append hdecode]
  rfl

theorem continues_skipFixed (data rest : Bytes) (pos : Int) (size : Nat) (message : String) :
    Continues (D.skipFixed data pos size message)
      (D.skipFixed (data ++ rest) pos size message) := by
  intro next hok _
  rw [Dialect.skipFixed, List.length_append]
  rw [Dialect.skipFixed] at hok
  split_ifs at hok with hover
  · cases hok
  · rw [if_neg fun hlater => hover ⟨hlater.1, by omega⟩]
    exact hok

theorem continues_skipLengthDelimited (data rest : Bytes) (pos : Int) :
    Continues (D.skipLengthDelimited data pos) (D.skipLengthDelimited (data ++ rest) pos) := by
  refine continues_bind (continues_readVarint data rest pos) fun read _ => ?_
  intro next hok _
  dsimp only at hok ⊢
  rw [note_bind] at hok ⊢
  dsimp only at hok ⊢
  rw [List.length_append]
  split_ifs at hok with hover
  · cases hok
  · rw [if_neg fun hlater => hover ⟨hlater.1, by omega⟩]
    exact hok

theorem continues_skipField (data rest : Bytes) (pos : Int) (wireType : Nat) :
    Continues (D.skipField data pos wireType) (D.skipField (data ++ rest) pos wireType) := by
  refine continues_bind ?_ fun _ _ => continues_refl _
  unfold Dialect.positionBehind
  split
  · exact continues_bind (continues_readVarint data rest pos) fun _ _ => continues_refl _
  · exact continues_skipFixed data rest pos _ _
  · exact continues_skipLengthDelimited data rest pos
  · exact continues_skipFixed data rest pos _ _
  · exact continues_refl _

/-- Either the end of a field that is read is checked, or it is where its length says. -/
def EndsThere (D : Dialect T) : Prop :=
  D.checksRead = true ∨ ∀ start ln, D.endOf start ln = start + ln

theorem continues_lengthDelimited (h : EndsThere D) (data rest : Bytes) (pos : Int)
    (message : String) : Continues (D.lengthDelimited data pos message)
      (D.lengthDelimited (data ++ rest) pos message) := by
  rintro ⟨sub, stop⟩ hok hall
  obtain ⟨ln, n, hresult, rfl, hchecks, hback, rfl⟩ := lengthDelimited_ok hok
  obtain ⟨hpos, -, -, hend, -⟩ := readVarint_ok hresult
  have hstop : D.endOf (pos + n) ln ≤ data.length := by
    obtain hcheck | hplain := h
    · exact hchecks hcheck
    · have hinside : pos + n + ln ≤ data.length := by
        refine hall (.length false pos (pos + n) ln data.length) ?_
        rw [lengthDelimited_of_ok hresult]
        split_ifs <;> exact List.mem_cons_self
      rw [hplain]
      exact hinside
  have hlater := continues_readVarint data rest pos _ hresult fun e he => by
    rw [readVarint_met] at he
    cases he
  rw [lengthDelimited_of_ok hlater, List.length_append,
    if_neg fun hover => by push_cast at hover; omega, if_neg (Int.not_lt.mpr hback),
    List.drop_append_of_le_length (by omega), List.take_append_of_le_length]
  rw [List.length_drop]
  omega

theorem continues_repeatedField (h : EndsThere D) (data rest : Bytes) (message : String)
    (parse : Bytes → Decoding α) (fieldNum wireType : Nat) (pos : Int) (parsed : List α) :
    Continues (D.repeatedField data message parse fieldNum wireType pos parsed)
      (D.repeatedField (data ++ rest) message parse fieldNum wireType pos parsed) := by
  rw [Dialect.repeatedField, Dialect.repeatedField]
  split_ifs
  · refine continues_bind (continues_lengthDelimited h data rest pos message) fun read _ => ?_
    exact continues_refl _
  · exact continues_bind (continues_skipField data rest pos wireType) fun _ _ =>
      continues_refl _

theorem parsed_prefix {message : String} {parse : Bytes → Decoding α} {fuel : Nat}
    {parsed all : List α}
    (hok : (D.eachField data (D.repeatedField data message parse) fuel pos parsed).result =
      .ok all) : parsed <+: all := by
  induction fuel generalizing pos parsed with
  | zero =>
      rw [Dialect.eachField] at hok
      split_ifs at hok
      · cases hok
      · cases hok
        exact List.prefix_rfl
  | succ fuel ih =>
      rw [Dialect.eachField] at hok
      split_ifs at hok
      · obtain ⟨read, -, hok⟩ := result_bind hok
        obtain ⟨⟨next, parsed'⟩, hfield, hok⟩ := result_bind hok
        refine List.IsPrefix.trans ?_ (ih hok)
        rw [Dialect.repeatedField] at hfield
        split_ifs at hfield
        · obtain ⟨_, -, hfield⟩ := result_bind hfield
          obtain ⟨a, -, hfield⟩ := result_bind hfield
          cases hfield
          exact List.prefix_append _ _
        · obtain ⟨_, -, hfield⟩ := result_bind hfield
          cases hfield
          exact List.prefix_rfl
      · cases hok
        exact List.prefix_rfl

/-- The longer message has the elements of the first one, and perhaps more. -/
theorem parsed_prefix_append (h : EndsThere D) {rest : Bytes} {message : String}
    {parse : Bytes → Decoding α} {fuel : Nat} {parsed some all : List α}
    (hsome : (D.eachField data (D.repeatedField data message parse) fuel pos parsed).result =
      .ok some)
    (hinside : (D.eachField data (D.repeatedField data message parse) fuel pos parsed).All
      Event.Inside)
    (hall : (D.eachField (data ++ rest) (D.repeatedField (data ++ rest) message parse) fuel pos
      parsed).result = .ok all) : some <+: all := by
  induction fuel generalizing pos parsed with
  | zero =>
      have hprefix := parsed_prefix hall
      rw [Dialect.eachField] at hsome
      split_ifs at hsome
      · cases hsome
      · cases hsome
        exact hprefix
  | succ fuel ih =>
      have hprefix := parsed_prefix hall
      rw [Dialect.eachField] at hsome hinside
      split_ifs at hsome hinside with hless
      · rw [Dialect.eachField, if_pos (by rw [List.length_append]; omega)] at hall
        obtain ⟨read, hread, hsome⟩ := result_bind hsome
        rw [all_bind_of_ok hread] at hinside
        have hread' := continues_readVarint data rest pos _ hread hinside.1
        rw [result_bind_of_ok hread'] at hall
        dsimp only at hall
        obtain ⟨next, hfield, hsome⟩ := result_bind hsome
        replace hinside := hinside.2
        rw [all_bind_of_ok hfield] at hinside
        have hfield' := continues_repeatedField h data rest message parse _ _ _ _ _ hfield
          hinside.1
        rw [result_bind_of_ok hfield'] at hall
        exact ih hsome ((all_bind_of_ok rfl _).mp hinside.2).2 hall
      · cases hsome
        exact hprefix

end Continues

/-- What is decoded without a failure is no truncated message for a complete one: its fields
lie in their messages, and a longer message has the same tuples, and perhaps more. -/
structure Truncates (language : Language) (data : Bytes) : Prop where
  inside : ∀ fuel, Decoding.OkAll Event.Inside (language.decode fuel data)
  tuples_prefix : ∀ rest fuel some all, (language.decode fuel data).result = .ok some →
    (language.decode fuel (data ++ rest)).result = .ok all → some <+: all

theorem endsThere (language : Language) : EndsThere language.dialect := by
  cases language with
  | python => exact .inr fun _ _ => rfl
  | typeScript => exact .inl rfl
  | go => exact .inl rfl

/-- A decoder that succeeds has taken no truncated message for a complete one exactly if no walk
through the bytes gets to its end past a field that does not lie in its message. -/
theorem truncates_iff (language : Language) (data : Bytes) (hsize : data.length < 2 ^ 63) :
    Truncates language data ↔ ∀ rounds, ¬(language.walk rounds data).Overruns := by
  have hiff : ∀ rounds, Decoding.OkAll Event.Inside (language.decode rounds data) ↔
      ¬(language.walk rounds data).Overruns :=
    fun rounds => (walked_decode hsize rounds).okAll_iff
  constructor
  · exact fun h rounds => (hiff rounds).mp (h.inside rounds)
  · intro h
    have hinside := fun rounds => (hiff rounds).mpr (h rounds)
    exact ⟨hinside, fun rest fuel some all hsome hall =>
      parsed_prefix_append (endsThere language) hsome (hinside fuel some hsome) hall⟩

/-- A tuple of one number in Python, and a request id that is missing in TypeScript. -/
theorem truncates_iff_oneNumber : Truncates .python [0x12, 0x04, 0x12, 0x02, 0x08, 0x07] ∧
    ¬Truncates .typeScript [0x0A, 0x05] := by
  refine ⟨(truncates_iff _ _ (by decide)).mpr fun rounds => ?_,
    fun h => (truncates_iff _ _ (by decide)).mp h 1 ⟨(), rfl⟩⟩
  rintro ⟨u, hu⟩
  match rounds with
  | 0 => cases hu
  | 1 => cases hu
  | rounds + 2 => cases hu

/-- The Python decoder makes an empty tuple of a tuple of five bytes that are missing. -/
theorem not_truncates : ¬∀ (language : Language) (data : Bytes), data.length < 2 ^ 63 →
    Truncates language data := by
  intro h
  have hmet : Event.length false 1 2 5 2 ∈ (Language.python.decode 2 [0x12, 0x05]).met := by
    decide
  have hinside := (h .python [0x12, 0x05] (by decide)).inside 2 [[]] (by decide) _ hmet
  exact absurd (show (2 : Int) + 5 ≤ 2 from hinside) (by decide)

end PlexSpaces.Sdk
