import Mathlib.Data.List.Infix
/-!
# SQL patterns

The patterns of SQL's `LIKE` over any letters.  A pattern is written with two wildcards, one for
any text and one for any letter, and possibly with an escape letter before a letter that stands
for itself.  `same` says which letters a letter of a pattern matches.

A pattern that begins and ends with the wildcard for any text looks for a piece of the text
(`like_around_iff`).  Where nothing is escaped, a text matches itself as a pattern (`like_self`)
and a pattern is matched piece by piece (`like_append_iff`).
-/

namespace PlexSpaces.Lib

universe u

variable {α : Type u}

inductive LikeToken (α : Type u)
  | any
  | one
  | lit (a : α)

structure LikeSyntax (α : Type u) where
  any : α
  one : α
  escape : Option α
  same : α → α → Bool
  any_ne_escape : some any ≠ escape
  same_refl : ∀ a, same a a = true

/-- `LIKE` with a pattern that is already split. -/
def likeTokens (same : α → α → Bool) : List (LikeToken α) → List α → Bool
  | [], text => text.isEmpty
  | .any :: ts, text => text.tails.any (likeTokens same ts)
  | .one :: _, [] => false
  | .one :: ts, _ :: text => likeTokens same ts text
  | .lit _ :: _, [] => false
  | .lit a :: ts, c :: text => same a c && likeTokens same ts text

namespace LikeSyntax

variable [DecidableEq α] (S : LikeSyntax α)

def token (a : α) : LikeToken α :=
  if a = S.any then .any else if a = S.one then .one else .lit a

/-- An escape letter at the end of a pattern stands for nothing. -/
def tokens : List α → List (LikeToken α)
  | [] => []
  | [a] => if some a = S.escape then [] else [S.token a]
  | a :: b :: pattern =>
      if some a = S.escape then .lit b :: tokens pattern
      else S.token a :: tokens (b :: pattern)

def like (pattern text : List α) : Bool := likeTokens S.same (S.tokens pattern) text

/-- The letter stands for itself, and only it matches it. -/
structure Ordinary (a : α) : Prop where
  ne_any : a ≠ S.any
  ne_one : a ≠ S.one
  ne_escape : some a ≠ S.escape
  eq_of_same : ∀ c, S.same a c = true → c = a

variable {S}

theorem tokens_cons {a : α} (h : some a ≠ S.escape) (pattern : List α) :
    S.tokens (a :: pattern) = S.token a :: S.tokens pattern := by
  cases pattern with
  | nil => exact if_neg h
  | cons b pattern => exact if_neg h

theorem tokens_escape {a : α} (h : some a = S.escape) : S.tokens [a] = [] := if_pos h

theorem tokens_escape_cons {a : α} (h : some a = S.escape) (b : α) (pattern : List α) :
    S.tokens (a :: b :: pattern) = .lit b :: S.tokens pattern :=
  if_pos h

theorem Ordinary.tokens_cons {a : α} (h : S.Ordinary a) (pattern : List α) :
    S.tokens (a :: pattern) = .lit a :: S.tokens pattern := by
  rw [LikeSyntax.tokens_cons h.ne_escape, token, if_neg h.ne_any, if_neg h.ne_one]

/-- An ordinary letter splits a pattern, also after an escape letter. -/
theorem Ordinary.tokens_append_cons {a : α} (h : S.Ordinary a) (pattern rest : List α) :
    S.tokens (pattern ++ a :: rest) = S.tokens pattern ++ .lit a :: S.tokens rest := by
  induction pattern using tokens.induct S with
  | case1 => exact h.tokens_cons rest
  | case2 b hb =>
      rw [List.singleton_append, tokens_escape_cons hb, tokens_escape hb]
      rfl
  | case3 b hb =>
      rw [List.singleton_append, LikeSyntax.tokens_cons hb, LikeSyntax.tokens_cons hb,
        h.tokens_cons]
      rfl
  | case4 b c pattern hb ih =>
      rw [List.cons_append, List.cons_append, tokens_escape_cons hb, ih, tokens_escape_cons hb]
      rfl
  | case5 b c pattern hb ih =>
      rw [List.cons_append, LikeSyntax.tokens_cons hb, ih, LikeSyntax.tokens_cons hb]
      rfl

end LikeSyntax

section Tokens

variable {same : α → α → Bool} {ts us : List (LikeToken α)} {text : List α}

theorem likeTokens_any :
    likeTokens same (.any :: ts) text = text.tails.any (likeTokens same ts) := rfl

theorem likeTokens_one_cons {c : α} :
    likeTokens same (.one :: ts) (c :: text) = likeTokens same ts text := rfl

theorem likeTokens_lit_cons {a c : α} :
    likeTokens same (.lit a :: ts) (c :: text) = (same a c && likeTokens same ts text) := rfl

theorem likeTokens_any_iff :
    likeTokens same (.any :: ts) text = true ↔ ∃ x y, text = x ++ y ∧
      likeTokens same ts y = true := by
  rw [likeTokens_any, List.any_eq_true]
  constructor
  · rintro ⟨y, hy, hmatch⟩
    obtain ⟨x, rfl⟩ := (List.mem_tails _ _).mp hy
    exact ⟨x, y, rfl, hmatch⟩
  · rintro ⟨x, y, rfl, hmatch⟩
    exact ⟨y, (List.mem_tails _ _).mpr (List.suffix_append x y), hmatch⟩

/-- A text matches two patterns in a row when it can be cut between them. -/
theorem likeTokens_append_iff : likeTokens same (ts ++ us) text = true ↔
    ∃ x y, text = x ++ y ∧ likeTokens same ts x = true ∧ likeTokens same us y = true := by
  induction ts generalizing text with
  | nil =>
      constructor
      · intro h
        exact ⟨[], text, rfl, rfl, h⟩
      · rintro ⟨x, y, rfl, hx, hy⟩
        rw [List.isEmpty_iff.mp hx]
        exact hy
  | cons t ts ih =>
      cases t with
      | any =>
          rw [List.cons_append, likeTokens_any_iff]
          constructor
          · rintro ⟨w, z, rfl, h⟩
            obtain ⟨x, y, rfl, hx, hy⟩ := ih.mp h
            exact ⟨w ++ x, y, (List.append_assoc _ _ _).symm,
              likeTokens_any_iff.mpr ⟨w, x, rfl, hx⟩, hy⟩
          · rintro ⟨z, y, rfl, hz, hy⟩
            obtain ⟨w, x, rfl, hx⟩ := likeTokens_any_iff.mp hz
            exact ⟨w, x ++ y, List.append_assoc _ _ _, ih.mpr ⟨x, y, rfl, hx, hy⟩⟩
      | one =>
          cases text with
          | nil =>
              refine iff_of_false (fun h => by cases h) ?_
              rintro ⟨x, y, hsplit, hx, -⟩
              obtain ⟨rfl, rfl⟩ := List.append_eq_nil_iff.mp hsplit.symm
              cases hx
          | cons c text =>
              rw [List.cons_append, likeTokens_one_cons, ih]
              constructor
              · rintro ⟨x, y, rfl, hx, hy⟩
                exact ⟨c :: x, y, rfl, hx, hy⟩
              · rintro ⟨_ | ⟨d, x⟩, y, hsplit, hx, hy⟩
                · cases hx
                · cases hsplit
                  exact ⟨x, y, rfl, hx, hy⟩
      | lit a =>
          cases text with
          | nil =>
              refine iff_of_false (fun h => by cases h) ?_
              rintro ⟨x, y, hsplit, hx, -⟩
              obtain ⟨rfl, rfl⟩ := List.append_eq_nil_iff.mp hsplit.symm
              cases hx
          | cons c text =>
              rw [List.cons_append, likeTokens_lit_cons, Bool.and_eq_true, ih]
              constructor
              · rintro ⟨hsame, x, y, rfl, hx, hy⟩
                exact ⟨c :: x, y, rfl, Bool.and_eq_true_iff.mpr ⟨hsame, hx⟩, hy⟩
              · rintro ⟨_ | ⟨d, x⟩, y, hsplit, hx, hy⟩
                · cases hx
                · cases hsplit
                  obtain ⟨hsame, hx⟩ := Bool.and_eq_true_iff.mp hx
                  exact ⟨hsame, x, y, rfl, hx, hy⟩

theorem likeTokens_lit_iff {a : α} : likeTokens same (.lit a :: ts) text = true ↔
    ∃ c x, text = c :: x ∧ same a c = true ∧ likeTokens same ts x = true := by
  cases text with
  | nil =>
      refine iff_of_false (fun h => by cases h) ?_
      rintro ⟨c, x, hsplit, -⟩
      cases hsplit
  | cons c text => simp [likeTokens_lit_cons]

end Tokens

namespace LikeSyntax

variable [DecidableEq α] {S : LikeSyntax α}

theorem Ordinary.like_cons_iff {a : α} (h : S.Ordinary a) {pattern text : List α} :
    S.like (a :: pattern) text = true ↔ ∃ v, text = a :: v ∧ S.like pattern v = true := by
  rw [like, h.tokens_cons, likeTokens_lit_iff]
  constructor
  · rintro ⟨c, x, rfl, hsame, hx⟩
    rw [h.eq_of_same c hsame]
    exact ⟨x, rfl, hx⟩
  · rintro ⟨v, rfl, hv⟩
    exact ⟨a, v, rfl, S.same_refl a, hv⟩

/-- `LIKE '%a..b%'` finds a piece of the text between the letters `a` and `b`. -/
theorem like_around_iff {a b : α} (ha : S.Ordinary a) (hb : S.Ordinary b)
    {pattern text : List α} :
    S.like (S.any :: a :: (pattern ++ [b, S.any])) text = true ↔
      ∃ v, S.like pattern v = true ∧ a :: (v ++ [b]) <:+: text := by
  have htokens : S.tokens (S.any :: a :: (pattern ++ [b, S.any])) =
      .any :: .lit a :: (S.tokens pattern ++ [.lit b, .any]) := by
    rw [LikeSyntax.tokens_cons S.any_ne_escape, token, if_pos rfl, ha.tokens_cons,
      hb.tokens_append_cons, LikeSyntax.tokens_cons S.any_ne_escape, token, if_pos rfl]
    rfl
  rw [like, htokens, likeTokens_any_iff]
  constructor
  · rintro ⟨x, _, rfl, h⟩
    obtain ⟨c, _, rfl, hsame, h⟩ := likeTokens_lit_iff.mp h
    obtain ⟨v, _, rfl, hv, h⟩ := likeTokens_append_iff.mp h
    obtain ⟨d, y, rfl, hsame', -⟩ := likeTokens_lit_iff.mp h
    rw [ha.eq_of_same c hsame, hb.eq_of_same d hsame']
    exact ⟨v, hv, x, y, by simp⟩
  · rintro ⟨v, hv, x, y, rfl⟩
    refine ⟨x, a :: (v ++ b :: y), by simp, ?_⟩
    refine likeTokens_lit_iff.mpr ⟨a, _, rfl, S.same_refl a, ?_⟩
    refine likeTokens_append_iff.mpr ⟨v, b :: y, rfl, hv, ?_⟩
    refine likeTokens_lit_iff.mpr ⟨b, y, rfl, S.same_refl b, ?_⟩
    exact likeTokens_any_iff.mpr ⟨y, [], (List.append_nil y).symm, rfl⟩

/-- Where nothing is escaped, a text matches itself as a pattern. -/
theorem like_self (h : S.escape = none) (text : List α) : S.like text text = true := by
  induction text with
  | nil => rfl
  | cons a text ih =>
      have hne : some a ≠ S.escape := by
        rw [h]
        exact Option.some_ne_none a
      rw [like, tokens_cons hne, token]
      split_ifs
      · exact likeTokens_any_iff.mpr ⟨[a], text, rfl, ih⟩
      · exact ih
      · exact likeTokens_lit_iff.mpr ⟨a, text, rfl, S.same_refl a, ih⟩

/-- Where nothing is escaped, a pattern is split letter by letter. -/
theorem tokens_eq_map (h : S.escape = none) (pattern : List α) :
    S.tokens pattern = pattern.map S.token := by
  induction pattern with
  | nil => rfl
  | cons a pattern ih =>
      have hne : some a ≠ S.escape := by
        rw [h]
        exact Option.some_ne_none a
      rw [tokens_cons hne, ih, List.map_cons]

/-- Where nothing is escaped, a pattern is matched piece by piece. -/
theorem like_append_iff (h : S.escape = none) (pattern pattern' text : List α) :
    S.like (pattern ++ pattern') text = true ↔
      ∃ x y, text = x ++ y ∧ S.like pattern x = true ∧ S.like pattern' y = true := by
  rw [like, tokens_eq_map h, List.map_append, ← tokens_eq_map h, ← tokens_eq_map h]
  exact likeTokens_append_iff

theorem like_any (text : List α) : S.like [S.any] text = true := by
  rw [like, tokens_cons S.any_ne_escape, token, if_pos rfl]
  exact likeTokens_any_iff.mpr ⟨text, [], (List.append_nil text).symm, rfl⟩

theorem like_iff_eq_of_ordinary {pattern : List α} (h : ∀ a ∈ pattern, S.Ordinary a)
    (text : List α) : S.like pattern text = true ↔ text = pattern := by
  induction pattern generalizing text with
  | nil => exact List.isEmpty_iff
  | cons a pattern ih =>
      have hrest := ih fun b hb => h b (List.mem_cons_of_mem a hb)
      rw [(h a List.mem_cons_self).like_cons_iff]
      constructor
      · rintro ⟨v, rfl, hv⟩
        rw [(hrest v).mp hv]
      · rintro rfl
        exact ⟨pattern, rfl, (hrest pattern).mpr rfl⟩

end LikeSyntax

/-- A piece that begins with a letter which the front of a text lacks lies in the rest. -/
theorem infix_append_iff_of_notMem {a : α} {xs : List α} (h : a ∉ xs) (l ys : List α) :
    a :: l <:+: xs ++ ys ↔ a :: l <:+: ys := by
  induction xs with
  | nil => exact Iff.rfl
  | cons x xs ih =>
      rw [List.mem_cons, not_or] at h
      rw [List.cons_append, List.infix_cons_iff, ih h.2, or_iff_right]
      rw [List.cons_prefix_cons]
      rintro ⟨hax, -⟩
      exact h.1 hax

end PlexSpaces.Lib
