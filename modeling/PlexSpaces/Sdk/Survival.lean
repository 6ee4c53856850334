import PlexSpaces.Sdk.Decoders
/-!
# Malformed bytes

What the Go decoder does with bytes that are no message.  It adds the length of a
field to a position as an `int`, and compares the sum with the size of the data; a
length that makes the sum overflow passes.
-/

namespace PlexSpaces.Sdk

open PlexSpaces.Lib

/-! ## Two views of what is met -/

namespace Decoding

variable {α β : Type}

/-- A decoding that returns does so with `P`; it does not panic, and has enough fuel, unless
`stuck` says that it may not. -/
def Ends (stuck : Prop) (P : α → Prop) : Except Fault α → Prop
  | .ok a => P a
  | .error (.error _) => True
  | .error .panic => False
  | .error .stuck => stuck

/-- Where everything met is `A`, everything met is `B` and it ends with `P`. -/
def Turns (A B : Event → Prop) (stuck : Prop) (P : α → Prop) (p : Decoding α) : Prop :=
  p.All A → p.All B ∧ Ends stuck P p.result

variable {A B : Event → Prop} {stuck : Prop} {P : α → Prop} {P' : β → Prop}

theorem turns_pure {a : α} (h : P a) : Turns A B stuck P (pure a : Decoding α) :=
  fun _ => ⟨nofun, h⟩

theorem turns_throw (message : String) :
    Turns A B stuck P (throw (.error message) : Decoding α) :=
  fun _ => ⟨nofun, trivial⟩

theorem turns_note {e : Event} (h : A e → B e) :
    Turns A B stuck (fun _ => A e) (note e) := by
  intro hall
  have he : A e := hall e List.mem_cons_self
  refine ⟨fun e' he' => ?_, he⟩
  rw [List.mem_singleton.mp he']
  exact h he

theorem turns_bind {p : Decoding α} {f : α → Decoding β} (hp : Turns A B stuck P p)
    (hf : ∀ a, P a → Turns A B stuck P' (f a)) : Turns A B stuck P' (p >>= f) := by
  intro hall
  cases hresult : p.result with
  | error e =>
      rw [all_bind_of_error hresult] at hall
      obtain ⟨hmet, hends⟩ := hp hall
      rw [all_bind_of_error hresult, bind_of_error hresult]
      rw [hresult] at hends
      exact ⟨hmet, by cases e <;> exact hends⟩
  | ok a =>
      rw [all_bind_of_ok hresult] at hall
      obtain ⟨hmet, hends⟩ := hp hall.1
      rw [hresult] at hends
      obtain ⟨hmet', hends'⟩ := hf a hends hall.2
      rw [all_bind_of_ok hresult, bind_of_ok hresult]
      exact ⟨⟨hmet, hmet'⟩, hends'⟩

end Decoding

/-! ## The loops -/

section Loops

variable {T α : Type} {D : Dialect T} {data : Bytes} {pos : Int}

variable {A B : Event → Prop} {stuck : Prop}

open Decoding

theorem turns_readVarint (hpos : 0 ≤ pos) : Turns A B stuck
    (fun read => 0 < read.2 ∧ read.2 ≤ 10 ∧ pos + read.2 ≤ data.length)
    (D.readVarint data pos) := by
  intro _
  refine ⟨fun e he => ?_, ?_⟩
  · rw [readVarint_met] at he
    cases he
  · cases hresult : (D.readVarint data pos).result with
    | ok read =>
        obtain ⟨-, hn, hten, hend, -⟩ := readVarint_ok hresult
        exact ⟨hn, hten, hend⟩
    | error e =>
        obtain ⟨message, rfl⟩ := readVarint_error hpos hresult
        trivial

theorem turns_positionBehind (hpos : 0 ≤ pos) {wireType : Nat} (htype : wireType ≠ 2) :
    Turns A B stuck (fun next => pos < next) (D.positionBehind data pos wireType) := by
  have hfixed : ∀ size message, 0 < size →
      Turns A B stuck (fun next => pos < next) (D.skipFixed data pos size message) := by
    intro size message hsize
    rw [Dialect.skipFixed]
    split_ifs
    · exact turns_throw message
    · exact turns_pure (by omega)
  unfold Dialect.positionBehind
  split
  · exact turns_bind (turns_readVarint hpos) fun read hread => turns_pure (by omega)
  · exact hfixed 8 _ (by decide)
  · exact absurd rfl htype
  · exact hfixed 4 _ (by decide)
  · exact turns_throw _

/-- What a loop over data in memory needs of its parts: a field that is read or skipped moves
the position on. -/
structure Moves (D : Dialect T) (A B : Event → Prop) (stuck : Prop) : Prop where
  step : ∀ pos next, pos < next → B (.step pos next)
  read : ∀ data pos message, data.length < 2 ^ 63 → 0 ≤ pos → Turns A B stuck
    (fun read => pos < read.2 ∧ read.1.length ≤ data.length) (D.lengthDelimited data pos message)
  skip : ∀ data pos, data.length < 2 ^ 63 → 0 ≤ pos →
    Turns A B stuck (fun next => pos < next) (D.skipField data pos 2)

variable (h : Moves D A B stuck)

include h

theorem turns_skipField (hsize : data.length < 2 ^ 63) (hpos : 0 ≤ pos) (wireType : Nat) :
    Turns A B stuck (fun next => pos < next) (D.skipField data pos wireType) := by
  by_cases htype : wireType = 2
  · rw [htype]
    exact h.skip data pos hsize hpos
  · refine turns_bind (turns_positionBehind hpos htype) fun next hnext => ?_
    exact turns_bind (turns_note fun _ => h.step pos next hnext) fun _ _ => turns_pure hnext

variable {field : Nat → Nat → Int → α → Decoding (Int × α)}

theorem turns_eachField (hfield : ∀ fieldNum wireType pos acc, 0 ≤ pos →
      Turns A B stuck (fun next => pos < next.1) (field fieldNum wireType pos acc))
    {fuel : Nat} (hfuel : ¬stuck → data.length ≤ pos + fuel) (hpos : 0 ≤ pos) (acc : α) :
    Turns A B stuck (fun _ => True) (D.eachField data field fuel pos acc) := by
  induction fuel generalizing pos acc with
  | zero =>
      rw [Dialect.eachField]
      split_ifs with hless
      · refine fun _ => ⟨nofun, ?_⟩
        by_contra hnot
        have hlength := hfuel hnot
        omega
      · exact turns_pure trivial
  | succ fuel ih =>
      rw [Dialect.eachField]
      split_ifs with hless
      · refine turns_bind (turns_readVarint hpos) fun read hread => ?_
        refine turns_bind (hfield _ _ _ acc (by omega)) fun next hnext => ?_
        refine turns_bind (turns_note fun _ => h.step _ _ (by omega)) fun _ _ => ?_
        exact ih (fun hnot => by have := hfuel hnot; omega) (by omega) _
      · exact turns_pure trivial

theorem turns_valueField {msg : Bytes} (hsize : msg.length < 2 ^ 63) (fieldNum wireType : Nat)
    (hpos : 0 ≤ pos) (last : Value T) :
    Turns A B stuck (fun next => pos < next.1) (D.valueField msg fieldNum wireType pos last) := by
  unfold Dialect.valueField
  split
  · refine turns_bind (turns_readVarint hpos) fun read hread => turns_pure ?_
    dsimp only
    omega
  · split_ifs
    · exact turns_throw _
    all_goals
      refine turns_pure ?_
      dsimp only
      omega
  · exact turns_bind (h.read msg pos _ hsize hpos) fun read hread => turns_pure hread.1
  · exact turns_bind (turns_skipField h hsize hpos wireType) fun next hnext => turns_pure hnext

theorem turns_repeatedField {msg : Bytes} (hsize : msg.length < 2 ^ 63) (message : String)
    {parse : Bytes → Decoding α}
    (hparse : ∀ sub : Bytes, sub.length ≤ msg.length →
      Turns A B stuck (fun _ => True) (parse sub))
    (fieldNum wireType : Nat) (hpos : 0 ≤ pos) (parsed : List α) :
    Turns A B stuck (fun next => pos < next.1)
      (D.repeatedField msg message parse fieldNum wireType pos parsed) := by
  rw [Dialect.repeatedField]
  split_ifs
  · refine turns_bind (h.read msg pos message hsize hpos) fun read hread => ?_
    exact turns_bind (hparse read.1 hread.2) fun _ _ => turns_pure hread.1
  · exact turns_bind (turns_skipField h hsize hpos wireType) fun next hnext => turns_pure hnext

theorem turns_parseTupleFieldMsg {fuel : Nat} {msg : Bytes} (hsize : msg.length < 2 ^ 63)
    (hfuel : ¬stuck → msg.length ≤ fuel) :
    Turns A B stuck (fun _ => True) (D.parseTupleFieldMsg fuel msg) :=
  turns_eachField h (fun fieldNum wireType _ last hpos =>
    turns_valueField h hsize fieldNum wireType hpos last) (fun hnot => by
      have := hfuel hnot
      omega) le_rfl _

theorem turns_parseTupleMsg {fuel : Nat} {msg : Bytes} (hsize : msg.length < 2 ^ 63)
    (hfuel : ¬stuck → msg.length ≤ fuel) :
    Turns A B stuck (fun _ => True) (D.parseTupleMsg fuel msg) :=
  turns_eachField h (fun fieldNum wireType _ fields hpos =>
    turns_repeatedField h hsize _ (fun sub hsub => turns_parseTupleFieldMsg h (hsub.trans_lt hsize)
      fun hnot => hsub.trans (hfuel hnot)) fieldNum wireType hpos fields) (fun hnot => by
      have := hfuel hnot
      omega) le_rfl _

theorem turns_parseReadResponseTuples {fuel : Nat} {data : Bytes} (hsize : data.length < 2 ^ 63)
    (hfuel : ¬stuck → data.length ≤ fuel) :
    Turns A B stuck (fun _ => True) (D.parseReadResponseTuples fuel data) :=
  turns_eachField h (fun fieldNum wireType _ tuples hpos =>
    turns_repeatedField h hsize _ (fun sub hsub => turns_parseTupleMsg h (hsub.trans_lt hsize)
      fun hnot => hsub.trans (hfuel hnot)) fieldNum wireType hpos tuples) (fun hnot => by
      have := hfuel hnot
      omega) le_rfl _

end Loops

/-! ## The Go decoder -/

/-- A step goes forward, and a slice lies in the data. -/
def Event.Sound : Event → Prop
  | .step pos next => pos < next
  | .slice start stop size => 0 ≤ start ∧ start ≤ stop ∧ stop ≤ size
  | .length _ _ _ _ _ => True

/-- The position plus the length is an `int`; or else the field is skipped and the sum, which
has overflowed, is still behind the position where the length stands. -/
def Event.Fits : Event → Prop
  | .length skipped pos start ln _ =>
      start + ln < 2 ^ 63 ∨ skipped = true ∧ pos < start + ln - 2 ^ 64
  | _ => True

section Go

variable {data : Bytes} {pos start : Int} {ln : Nat} {stuck : Prop}

open Decoding

theorem endOf_of_lt (hstart : 0 ≤ start) (h : start + ln < 2 ^ 63) :
    go.endOf start ln = start + ln := by
  change (start + (ln : Int).bmod (2 ^ 64)).bmod (2 ^ 64) = start + ln
  rw [Int.add_bmod_bmod]
  exact Int.bmod_eq_of_le (by omega) (by omega)

theorem endOf_of_ge (hstart : start < 2 ^ 63) (hln : ln < 2 ^ 64) (h : 2 ^ 63 ≤ start + ln) :
    go.endOf start ln = start + ln - 2 ^ 64 := by
  change (start + (ln : Int).bmod (2 ^ 64)).bmod (2 ^ 64) = start + ln - 2 ^ 64
  rw [Int.add_bmod_bmod, ← Int.sub_bmod_right (start + ln) (2 ^ 64)]
  exact Int.bmod_eq_of_le (by omega) (by omega)

theorem go_length_lt {n : Nat} (h : (go.readVarint data pos).result = .ok (ln, n)) :
    ln < 2 ^ 64 := by
  obtain ⟨-, -, -, -, number, -, hv⟩ := readVarint_ok h
  rw [hv]
  exact Nat.mod_lt _ (by decide)

/-- Where a field ends that has a length that was read. -/
theorem go_endOf {n : Nat} (hsize : data.length < 2 ^ 63)
    (h : (go.readVarint data pos).result = .ok (ln, n)) :
    go.endOf (pos + n) ln =
      if pos + n + ln < 2 ^ 63 then pos + n + ln else pos + n + ln - 2 ^ 64 := by
  obtain ⟨hpos, -, -, hend, -⟩ := readVarint_ok h
  split_ifs with hfits
  · exact endOf_of_lt (by omega) hfits
  · exact endOf_of_ge (by omega) (go_length_lt h) (by omega)

/-- A field that is read: with a length that fits the slice lies in the data, and else it ends
before it begins. -/
theorem go_read (stuck : Prop) (hsize : data.length < 2 ^ 63) (hpos : 0 ≤ pos) (message : String) :
    ((go.lengthDelimited data pos message).All Event.Fits ↔
        (go.lengthDelimited data pos message).All Event.Sound) ∧
      ((go.lengthDelimited data pos message).All Event.Sound →
        Ends stuck (fun read => pos < read.2 ∧ read.1.length ≤ data.length)
          (go.lengthDelimited data pos message).result) := by
  cases hresult : (go.readVarint data pos).result with
  | error e =>
      rw [lengthDelimited_of_error hresult]
      refine ⟨iff_of_true nofun nofun, fun _ => ?_⟩
      obtain ⟨message, rfl⟩ := readVarint_error hpos hresult
      trivial
  | ok read =>
      obtain ⟨ln, n⟩ := read
      obtain ⟨-, hn, -, hend, -⟩ := readVarint_ok hresult
      have hlength := go_length_lt hresult
      rw [lengthDelimited_of_ok hresult, go_endOf hsize hresult]
      split_ifs with hfits hover hback hover hback <;>
        simp [Decoding.All, Event.Fits, Event.Sound, Ends, go] at * <;> omega

/-- A field that is skipped: the step goes forward exactly if the length fits. -/
theorem go_skip (stuck : Prop) (hsize : data.length < 2 ^ 63) (hpos : 0 ≤ pos) :
    ((go.skipField data pos 2).All Event.Fits ↔ (go.skipField data pos 2).All Event.Sound) ∧
      ((go.skipField data pos 2).All Event.Sound →
        Ends stuck (fun next => pos < next) (go.skipField data pos 2).result) := by
  cases hresult : (go.readVarint data pos).result with
  | error e =>
      obtain ⟨message, rfl⟩ := readVarint_error hpos hresult
      rw [skipField_of_error hresult]
      exact ⟨iff_of_true nofun nofun, fun _ => trivial⟩
  | ok read =>
      obtain ⟨ln, n⟩ := read
      obtain ⟨-, hn, -, hend, -⟩ := readVarint_ok hresult
      have hlength := go_length_lt hresult
      rw [skipField_of_ok hresult, go_endOf hsize hresult]
      split_ifs with hfits hover hover <;>
        simp [Decoding.All, Event.Fits, Event.Sound, Ends, go] at * <;> omega

theorem moves_fits : Moves go Event.Fits Event.Sound stuck where
  step _ _ h := h
  read data pos message hsize hpos hall := by
    obtain ⟨hiff, hends⟩ := go_read stuck hsize hpos message
    exact ⟨hiff.mp hall, hends (hiff.mp hall)⟩
  skip data pos hsize hpos hall := by
    obtain ⟨hiff, hends⟩ := go_skip stuck hsize hpos
    exact ⟨hiff.mp hall, hends (hiff.mp hall)⟩

theorem moves_sound : Moves go Event.Sound Event.Fits stuck where
  step _ _ _ := trivial
  read data pos message hsize hpos hall := by
    obtain ⟨hiff, hends⟩ := go_read stuck hsize hpos message
    exact ⟨hiff.mpr hall, hends hall⟩
  skip data pos hsize hpos hall := by
    obtain ⟨hiff, hends⟩ := go_skip stuck hsize hpos
    exact ⟨hiff.mpr hall, hends hall⟩

end Go

/-- The decoder returns, each of its steps goes forward and each slice lies in the data. -/
structure Survives (data : Bytes) : Prop where
  returns : ∃ fuel,
    Decoding.Ends False (fun _ => True) (go.parseReadResponseTuples fuel data).result
  sound : ∀ fuel, (go.parseReadResponseTuples fuel data).All Event.Sound

/-- The Go decoder survives the bytes exactly if each length that it meets fits. -/
theorem go_survives_iff (data : Bytes) (hsize : data.length < 2 ^ 63) :
    Survives data ↔ ∀ fuel, (go.parseReadResponseTuples fuel data).All Event.Fits := by
  constructor
  · intro h fuel
    have hturns : Decoding.Turns Event.Sound Event.Fits True (fun _ => True)
        (go.parseReadResponseTuples fuel data) :=
      turns_parseReadResponseTuples moves_sound hsize fun hnot => absurd trivial hnot
    exact (hturns (h.sound fuel)).1
  · intro h
    have hturns : ∀ (stuck : Prop) (fuel : Nat), (¬stuck → data.length ≤ fuel) → _ :=
      fun _ _ hfuel => turns_parseReadResponseTuples moves_fits hsize hfuel
    refine ⟨⟨data.length, ?_⟩, fun fuel => ?_⟩
    · exact (hturns False data.length (fun _ => le_rfl) (h data.length)).2
    · exact (hturns True fuel (fun hnot => absurd trivial hnot) (h fuel)).1

theorem go_survives_iff_empty_tuple : Survives [0x12, 0x00] ↔
    ∀ fuel, (go.parseReadResponseTuples fuel [0x12, 0x00]).All Event.Fits :=
  go_survives_iff [0x12, 0x00] (by decide)

/-- A tuple whose length is `-1` as an `int` ends before it begins. -/
theorem not_go_survives : ¬∀ data : Bytes, data.length < 2 ^ 63 → Survives data := by
  intro h
  have hmet : Event.slice 11 10 11 ∈ (go.parseReadResponseTuples 1
      [0x12, 0xff, 0xff, 0xff, 0xff, 0xff, 0xff, 0xff, 0xff, 0xff, 0x01]).met := by decide
  have hsound := (h _ (by decide)).sound 1 _ hmet
  exact absurd hsound.2.1 (by decide)

end PlexSpaces.Sdk
