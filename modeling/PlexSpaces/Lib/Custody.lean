import Mathlib.Data.List.Nodup
import Mathlib.Logic.Function.Basic
/-!
# Custody of tokens

The tokens of a stock lie on a shelf or are in the hands of holders, one hand each.  A
step takes a token from the shelf, puts one back, gives one to another holder, supplies
new ones or withdraws some from the shelf; a token that is in a hand is not withdrawn.
In all of this no token is in two places (`Exclusive`), and none goes missing
(`Accounted`) as long as no holder drops one.
-/

namespace PlexSpaces.Lib

universe u v

structure Custody (T : Type u) (H : Type v) where
  stock : T → Prop
  shelf : List T
  hand : H → Option T

namespace Custody

variable {T : Type u} {H : Type v}

/-- No token is in two places. -/
structure Exclusive (s : Custody T H) : Prop where
  nodup : s.shelf.Nodup
  shelved : ∀ t ∈ s.shelf, s.stock t
  held : ∀ h t, s.hand h = some t → s.stock t ∧ t ∉ s.shelf
  single : ∀ h h' t, s.hand h = some t → s.hand h' = some t → h = h'

def Accounted (s : Custody T H) : Prop := ∀ t, s.stock t → t ∈ s.shelf ∨ ∃ h, s.hand h = some t

variable {s s' : Custody T H}

theorem Exclusive.tail {t : T} {shelf : List T} (hs : s.Exclusive) (hshelf : s.shelf = t :: shelf) :
    Exclusive { s with shelf } := by
  have hnodup := hs.nodup
  rw [hshelf] at hnodup
  refine ⟨(List.nodup_cons.mp hnodup).2, fun t' ht' => ?_, fun h t' ht' => ?_, hs.single⟩
  · exact hs.shelved t' (hshelf ▸ List.mem_cons_of_mem t ht')
  · obtain ⟨hstock, hnot⟩ := hs.held h t' ht'
    exact ⟨hstock, fun hmem => hnot (hshelf ▸ List.mem_cons_of_mem t hmem)⟩

/-- The shelf with a token that nobody holds and that is not on it yet. -/
theorem Exclusive.shelve {t : T} (hs : s.Exclusive) (hstock : s.stock t) (hshelf : t ∉ s.shelf)
    (hnobody : ∀ h, s.hand h ≠ some t) : Exclusive { s with shelf := s.shelf ++ [t] } := by
  refine ⟨?_, fun t' ht' => ?_, fun h t' ht' => ⟨(hs.held h t' ht').1, fun hmem => ?_⟩, hs.single⟩
  · exact List.nodup_append.mpr ⟨hs.nodup, List.nodup_singleton t, by
      rintro a ha b hb rfl
      exact hshelf (List.mem_singleton.mp hb ▸ ha)⟩
  · rcases List.mem_append.mp ht' with hold | hnew
    · exact hs.shelved t' hold
    · exact List.mem_singleton.mp hnew ▸ hstock
  · rcases List.mem_append.mp hmem with hold | hnew
    · exact (hs.held h t' ht').2 hold
    · exact hnobody h (List.mem_singleton.mp hnew ▸ ht')

variable [DecidableEq H]

/-- A step in which no token goes missing. -/
inductive Passes (s : Custody T H) : Custody T H → Prop
  | stay : Passes s s
  | take {t : T} {shelf : List T} (h : H) (hshelf : s.shelf = t :: shelf)
      (hfree : s.hand h = none) :
      Passes s { s with shelf, hand := Function.update s.hand h (some t) }
  | put {t : T} (h : H) (hheld : s.hand h = some t) :
      Passes s { s with shelf := s.shelf ++ [t], hand := Function.update s.hand h none }
  | give {t : T} (h h' : H) (hheld : s.hand h = some t) (hfree : s.hand h' = none) :
      Passes s { s with hand := Function.update (Function.update s.hand h' (some t)) h none }
  | supply {ts : List T} (hnodup : ts.Nodup) (hnew : ∀ t ∈ ts, ¬s.stock t) :
      Passes s { s with stock := fun t => s.stock t ∨ t ∈ ts, shelf := s.shelf ++ ts }
  | withdraw {shelf : List T} (hsub : shelf.Sublist s.shelf) :
      Passes s { s with stock := fun t => s.stock t ∧ (t ∈ s.shelf → t ∈ shelf), shelf }

def drop (s : Custody T H) (h : H) : Custody T H :=
  { s with hand := Function.update s.hand h none }

/-- What a hand holds after another value was put into one. -/
theorem update_eq_some {f : H → Option T} {h h' : H} {o : Option T} {t : T}
    (hf : Function.update f h o h' = some t) : h' = h ∧ o = some t ∨ h' ≠ h ∧ f h' = some t := by
  by_cases hh : h' = h
  · subst hh
    rw [Function.update_self] at hf
    exact .inl ⟨rfl, hf⟩
  · rw [Function.update_of_ne hh] at hf
    exact .inr ⟨hh, hf⟩

theorem update_none {f : H → Option T} {h h' : H} {t : T}
    (hf : Function.update f h none h' = some t) : f h' = some t := by
  rcases update_eq_some hf with ⟨-, hnone⟩ | ⟨-, hf⟩
  · cases hnone
  · exact hf

theorem Exclusive.drop (hs : s.Exclusive) (h : H) : (s.drop h).Exclusive where
  nodup := hs.nodup
  shelved := hs.shelved
  held h' t ht := hs.held h' t (update_none ht)
  single h₁ h₂ t h₁t h₂t := hs.single h₁ h₂ t (update_none h₁t) (update_none h₂t)

/-- What is put into a free hand comes from nowhere else. -/
theorem Exclusive.receive {t : T} {h : H} (hs : s.Exclusive) (hstock : s.stock t)
    (hshelf : t ∉ s.shelf) (hnobody : ∀ h', s.hand h' ≠ some t) :
    Exclusive { s with hand := Function.update s.hand h (some t) } where
  nodup := hs.nodup
  shelved := hs.shelved
  held h' t' ht' := by
    rcases update_eq_some ht' with ⟨-, heq⟩ | ⟨-, hold⟩
    · cases heq
      exact ⟨hstock, hshelf⟩
    · exact hs.held h' t' hold
  single h₁ h₂ t' h₁t h₂t := by
    rcases update_eq_some h₁t with ⟨rfl, heq₁⟩ | ⟨-, hold₁⟩
    · cases heq₁
      rcases update_eq_some h₂t with ⟨rfl, -⟩ | ⟨-, hold₂⟩
      · rfl
      · exact absurd hold₂ (hnobody h₂)
    · rcases update_eq_some h₂t with ⟨rfl, heq₂⟩ | ⟨-, hold₂⟩
      · cases heq₂
        exact absurd hold₁ (hnobody h₁)
      · exact hs.single h₁ h₂ t' hold₁ hold₂

theorem Passes.exclusive (hstep : s.Passes s') (hs : s.Exclusive) : s'.Exclusive := by
  cases hstep with
  | stay => exact hs
  | @take t shelf h hshelf hfree =>
      have hmem : t ∈ s.shelf := hshelf ▸ List.mem_cons_self
      have hnodup := hs.nodup
      rw [hshelf] at hnodup
      exact (hs.tail hshelf).receive (hs.shelved t hmem) (List.nodup_cons.mp hnodup).1
        fun h' ht => (hs.held h' t ht).2 hmem
  | @put t h hheld =>
      obtain ⟨hstock, hshelf⟩ := hs.held h t hheld
      refine (hs.drop h).shelve hstock hshelf fun h' ht => ?_
      rcases update_eq_some ht with ⟨-, hnone⟩ | ⟨hne, hold⟩
      · cases hnone
      · exact hne (hs.single h' h t hold hheld)
  | @give t h h' hheld hfree =>
      have hne : h' ≠ h := by
        rintro rfl
        rw [hheld] at hfree
        cases hfree
      obtain ⟨hstock, hshelf⟩ := hs.held h t hheld
      rw [Function.update_comm hne]
      refine (hs.drop h).receive hstock hshelf fun h₁ ht => ?_
      rcases update_eq_some ht with ⟨-, hnone⟩ | ⟨hne₁, hold⟩
      · cases hnone
      · exact hne₁ (hs.single h₁ h t hold hheld)
  | @supply ts hnodup hnew =>
      refine ⟨?_, fun t ht => ?_, fun h t ht => ⟨.inl (hs.held h t ht).1, fun hmem => ?_⟩,
        hs.single⟩
      · exact List.nodup_append.mpr ⟨hs.nodup, hnodup, by
          rintro a ha b hb rfl
          exact hnew a hb (hs.shelved a ha)⟩
      · exact (List.mem_append.mp ht).imp (hs.shelved t) id
      · rcases List.mem_append.mp hmem with hold | hts
        · exact (hs.held h t ht).2 hold
        · exact hnew t hts (hs.held h t ht).1
  | @withdraw shelf hsub =>
      refine ⟨hs.nodup.sublist hsub, fun t ht => ?_, fun h t ht => ?_, hs.single⟩
      · exact ⟨hs.shelved t (hsub.subset ht), fun _ => ht⟩
      · obtain ⟨hstock, hshelf⟩ := hs.held h t ht
        exact ⟨⟨hstock, fun hmem => absurd hmem hshelf⟩, fun hmem => hshelf (hsub.subset hmem)⟩

theorem hand_update_of_ne {f : H → Option T} {h h' : H} {o : Option T} {t : T}
    (hf : f h' = some t) (hh : f h ≠ some t) : Function.update f h o h' = some t := by
  have hne : h' ≠ h := by
    rintro rfl
    exact hh hf
  rw [Function.update_of_ne hne, hf]

theorem Passes.accounted (hstep : s.Passes s') (hs : s.Accounted) : s'.Accounted := by
  intro t hstock
  cases hstep with
  | stay => exact hs t hstock
  | @take t₀ shelf h hshelf hfree =>
      rcases hs t hstock with hmem | ⟨h', hheld⟩
      · rw [hshelf] at hmem
        rcases List.mem_cons.mp hmem with rfl | hrest
        · exact .inr ⟨h, Function.update_self ..⟩
        · exact .inl hrest
      · exact .inr ⟨h', hand_update_of_ne hheld (Option.eq_none_iff_forall_ne_some.mp hfree t)⟩
  | @put t₀ h hheld₀ =>
      rcases hs t hstock with hmem | ⟨h', hheld⟩
      · exact .inl (List.mem_append_left _ hmem)
      · by_cases ht : t = t₀
        · exact .inl (List.mem_append_right _ (List.mem_singleton.mpr ht))
        · refine .inr ⟨h', hand_update_of_ne hheld fun heq => ht ?_⟩
          exact Option.some.inj (heq.symm.trans hheld₀)
  | @give t₀ h h₁ hheld₀ hfree =>
      have hne : h₁ ≠ h := by
        rintro rfl
        rw [hheld₀] at hfree
        cases hfree
      rcases hs t hstock with hmem | ⟨h', hheld⟩
      · exact .inl hmem
      · right
        by_cases ht : t = t₀
        · subst ht
          exact ⟨h₁, (Function.update_of_ne hne _ _).trans (Function.update_self ..)⟩
        · have hkept : Function.update s.hand h₁ (some t₀) h' = some t :=
            hand_update_of_ne hheld (Option.eq_none_iff_forall_ne_some.mp hfree t)
          refine ⟨h', hand_update_of_ne hkept fun heq => ht ?_⟩
          rw [Function.update_of_ne hne.symm] at heq
          exact Option.some.inj (heq.symm.trans hheld₀)
  | supply hnodup hnew =>
      rcases hstock with hold | hts
      · exact (hs t hold).imp_left (List.mem_append_left _)
      · exact .inl (List.mem_append_right _ hts)
  | withdraw hsub => exact (hs t hstock.1).imp_left hstock.2

end Custody

end PlexSpaces.Lib
