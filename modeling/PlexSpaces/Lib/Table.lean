import Mathlib.Data.List.Nodup
/-!
# Tables with a primary key

A database table as the list of its rows in scan order, with a primary key that
no two rows share.  Each operation is one SQL statement: an insertion fails on a
key that is taken, a selection returns rows, a deletion removes the rows whose
key is listed.  A deletion by the keys of selected rows removes exactly these
rows when nothing happens in between (`rows_deleteKeys_select`).  A statement that
names a whole key reads or writes one row; `find_insert?`, `find_insertOrReplace`, `find_update`,
`find_upsert`, `find_deleteKeys` and `find_deleteWhere` say what the row of each key is
afterwards.  Statements on the keys of one part of the table work on that part alone
(`restrict`).
-/

namespace PlexSpaces.Lib

universe u v

variable {K : Type u} {R : Type v}

structure Table (R : Type v) {K : Type u} (key : R → K) where
  rows : List R
  nodup : (rows.map key).Nodup

namespace Table

variable {key : R → K}

def empty : Table R key := ⟨[], List.nodup_nil⟩

/-- `SELECT .. WHERE p`. -/
def select (t : Table R key) (p : R → Bool) : List R := t.rows.filter p

theorem eq_of_key_eq {t : Table R key} {r r' : R} (hr : r ∈ t.rows) (hr' : r' ∈ t.rows)
    (h : key r = key r') : r = r' :=
  List.inj_on_of_nodup_map t.nodup hr hr' h

/-- A condition that one key alone can meet selects at most one row. -/
theorem select_eq_singleton {t : Table R key} {p : R → Bool} {r : R} (hr : r ∈ t.rows)
    (hp : p r = true) (honly : ∀ r', p r' = true → key r' = key r) : t.select p = [r] := by
  have hmem : ∀ r', r' ∈ t.select p ↔ r' = r := by
    intro r'
    refine List.mem_filter.trans ⟨fun ⟨hr', hp'⟩ => t.eq_of_key_eq hr' hr (honly r' hp'), ?_⟩
    rintro rfl
    exact ⟨hr, hp⟩
  have hnodup : (t.select p).Nodup := (List.Nodup.of_map key t.nodup).filter p
  refine List.perm_singleton.mp
    ((List.perm_ext_iff_of_nodup hnodup (List.nodup_singleton r)).mpr ?_)
  intro r'
  rw [hmem, List.mem_singleton]

/-- `UPDATE .. SET .. WHERE p`, for columns outside the key. -/
def updateWhere (t : Table R key) (p : R → Bool) (f : R → R) (hf : ∀ r, key (f r) = key r) :
    Table R key where
  rows := t.rows.map fun r => if p r then f r else r
  nodup := by
    have hkeys : (t.rows.map fun r => if p r then f r else r).map key = t.rows.map key := by
      rw [List.map_map]
      apply List.map_congr_left
      intro r _
      rw [Function.comp_apply, apply_ite key, hf, ite_self]
    rw [hkeys]
    exact t.nodup

theorem updateWhere_of_select_nil {t : Table R key} {p : R → Bool} {f : R → R}
    {hf : ∀ r, key (f r) = key r} (h : t.select p = []) : t.updateWhere p f hf = t := by
  have hrows : (t.rows.map fun r => if p r then f r else r) = t.rows := by
    conv_rhs => rw [← List.map_id t.rows]
    apply List.map_congr_left
    intro r hr
    exact if_neg (List.filter_eq_nil_iff.mp h r hr)
  simp only [updateWhere, hrows]

variable [DecidableEq K]

/-- `INSERT`; `none` when the key is taken. -/
def insert? (t : Table R key) (r : R) : Option (Table R key) :=
  if h : key r ∈ t.rows.map key then none
  else some ⟨t.rows ++ [r], by
    rw [List.map_append, List.map_singleton]
    refine List.nodup_append.mpr ⟨t.nodup, List.nodup_singleton _, ?_⟩
    rintro a ha b hb rfl
    rw [List.mem_singleton] at hb
    exact h (hb ▸ ha)⟩

/-- `DELETE .. WHERE key IN ks`. -/
def deleteKeys (t : Table R key) (ks : List K) : Table R key where
  rows := t.rows.filter fun r => key r ∉ ks
  nodup := t.nodup.sublist (List.filter_sublist.map key)

theorem insert?_eq_none_iff {t : Table R key} {r : R} :
    t.insert? r = none ↔ key r ∈ t.rows.map key := by
  unfold insert?
  split_ifs with h
  · exact iff_of_true rfl h
  · exact iff_of_false (fun hnone => nomatch hnone) h

theorem rows_of_insert? {t t' : Table R key} {r : R} (h : t.insert? r = some t') :
    t'.rows = t.rows ++ [r] := by
  unfold insert? at h
  split_ifs at h
  cases h
  rfl

/-- Rows whose keys are all new can be inserted one after the other. -/
theorem foldlM_insert? {t : Table R key} {rs : List R} (h : ((t.rows ++ rs).map key).Nodup) :
    ∃ t', rs.foldlM (fun t r => insert? t r) t = some t' ∧ t'.rows = t.rows ++ rs := by
  induction rs generalizing t with
  | nil => exact ⟨t, rfl, (List.append_nil _).symm⟩
  | cons r rs ih =>
      cases hinsert : t.insert? r with
      | none =>
          have hmem := insert?_eq_none_iff.mp hinsert
          rw [List.map_append, List.map_cons] at h
          exact absurd rfl ((List.nodup_append.mp h).2.2 _ hmem _ List.mem_cons_self)
      | some t₁ =>
          have hrows := rows_of_insert? hinsert
          rw [List.append_cons, ← hrows] at h
          obtain ⟨t', hfold, hrows'⟩ := ih h
          refine ⟨t', ?_, ?_⟩
          · rw [List.foldlM_cons, hinsert]
            exact hfold
          · rw [hrows', hrows, List.append_assoc]
            rfl

theorem mem_deleteKeys {t : Table R key} {ks : List K} {r : R} :
    r ∈ (t.deleteKeys ks).rows ↔ r ∈ t.rows ∧ key r ∉ ks := by
  simp [deleteKeys]

theorem rows_deleteKeys_select (t : Table R key) (p : R → Bool) :
    (t.deleteKeys ((t.select p).map key)).rows = t.rows.filter fun r => !p r := by
  apply List.filter_congr
  intro r hr
  by_cases hp : p r = true
  · have hmem : key r ∈ (t.select p).map key :=
      List.mem_map_of_mem (List.mem_filter.mpr ⟨hr, hp⟩)
    simp [hmem, hp]
  · have hnot : key r ∉ (t.select p).map key := by
      intro hmem
      obtain ⟨r', hr', hkey⟩ := List.mem_map.mp hmem
      obtain ⟨hin, hp'⟩ := List.mem_filter.mp hr'
      rw [t.eq_of_key_eq hin hr hkey] at hp'
      exact hp hp'
    simp [hnot, hp]

/-- `DELETE .. WHERE p`. -/
def deleteWhere (t : Table R key) (p : R → Bool) : Table R key where
  rows := t.rows.filter fun r => !p r
  nodup := (List.filter_sublist.map key).nodup t.nodup

/-- `INSERT OR REPLACE`. -/
def insertOrReplace (t : Table R key) (r : R) : Table R key where
  rows := t.rows.filter (fun r' => key r' ≠ key r) ++ [r]
  nodup := by
    rw [List.map_append, List.map_singleton]
    refine List.nodup_append.mpr
      ⟨(List.filter_sublist.map key).nodup t.nodup, List.nodup_singleton _, ?_⟩
    rintro a ha b hb rfl
    obtain ⟨r', hr', rfl⟩ := List.mem_map.mp ha
    exact of_decide_eq_true (List.mem_filter.mp hr').2 (List.mem_singleton.mp hb)

theorem mem_insertOrReplace {t : Table R key} {r r' : R}
    (h : r' ∈ (t.insertOrReplace r).rows) : r' = r ∨ r' ∈ t.rows := by
  rcases List.mem_append.mp h with h | h
  · exact .inr (List.mem_filter.mp h).1
  · exact .inl (List.mem_singleton.mp h)

section Find

/-- `SELECT .. WHERE key = k`. -/
def find (t : Table R key) (k : K) : Option R := t.rows.find? fun r => key r = k

/-- `UPDATE .. SET .. WHERE key = k`, for columns outside the key. -/
def update (t : Table R key) (k : K) (f : R → R) (hf : ∀ r, key (f r) = key r) :
    Table R key where
  rows := t.rows.map fun r => if key r = k then f r else r
  nodup := by
    have hkeys : (t.rows.map fun r => if key r = k then f r else r).map key =
        t.rows.map key := by
      rw [List.map_map]
      apply List.map_congr_left
      intro r _
      rw [Function.comp_apply, apply_ite key, hf, ite_self]
    rw [hkeys]
    exact t.nodup

theorem key_of_find {t : Table R key} {k : K} {r : R} (h : t.find k = some r) : key r = k := by
  simpa using List.find?_some h

theorem find_of_mem {t : Table R key} {r : R} (hr : r ∈ t.rows) : t.find (key r) = some r := by
  cases hfind : t.find (key r) with
  | none => exact absurd (by simp) (List.find?_eq_none.mp hfind r hr)
  | some r' => rw [t.eq_of_key_eq (List.mem_of_find?_eq_some hfind) hr (key_of_find hfind)]

theorem mem_map_key_iff {t : Table R key} {k : K} :
    k ∈ t.rows.map key ↔ ∃ r, t.find k = some r := by
  rw [← Option.isSome_iff_exists, find, List.find?_isSome]
  simp

theorem find_insert? {t t' : Table R key} {r : R} (h : t.insert? r = some t') (k : K) :
    t'.find k = if k = key r then some r else t.find k := by
  have hnew : t.find (key r) = none := by
    rw [← Option.not_isSome_iff_eq_none, Option.isSome_iff_exists, ← mem_map_key_iff,
      ← insert?_eq_none_iff, h]
    exact fun hnone => nomatch hnone
  rw [find, rows_of_insert? h, List.find?_append]
  by_cases hk : k = key r
  · subst hk
    rw [if_pos rfl, ← find, hnew]
    simp
  · rw [if_neg hk, ← find]
    simp [Ne.symm hk]

theorem find_insertOrReplace (t : Table R key) (r : R) (k : K) :
    (t.insertOrReplace r).find k = if k = key r then some r else t.find k := by
  rw [find, insertOrReplace, List.find?_append, List.find?_filter]
  by_cases hk : k = key r
  · subst hk
    rw [if_pos rfl, List.find?_eq_none.mpr]
    · simp
    · intro r' _
      simp
  · rw [if_neg hk, find, List.find?_singleton, if_neg (by simpa using Ne.symm hk), Option.or_none]
    congr 1
    funext r'
    by_cases hr' : key r' = k
    · simp [hr', hk]
    · simp [hr']

theorem find_update (t : Table R key) (k : K) (f : R → R) (hf : ∀ r, key (f r) = key r)
    (k' : K) :
    (t.update k f hf).find k' = if k' = k then (t.find k).map f else t.find k' := by
  have hpred : ((fun r => decide (key r = k')) ∘ fun r => if key r = k then f r else r) =
      fun r => decide (key r = k') := by
    funext r
    rw [Function.comp_apply, apply_ite key, hf, ite_self]
  have hmap : (t.update k f hf).find k' =
      (t.find k').map fun r => if key r = k then f r else r := by
    rw [find, update, List.find?_map, hpred, find]
  rw [hmap]
  cases hfind : t.find k' with
  | none =>
      by_cases hk : k' = k
      · subst hk
        rw [if_pos rfl, hfind]
        rfl
      · rw [if_neg hk]
        rfl
  | some r =>
      rw [Option.map_some, key_of_find hfind]
      by_cases hk : k' = k
      · subst hk
        rw [if_pos rfl, if_pos rfl, hfind, Option.map_some]
      · rw [if_neg hk, if_neg hk]

theorem find_updateWhere (t : Table R key) (p : R → Bool) (f : R → R)
    (hf : ∀ r, key (f r) = key r) (k : K) :
    (t.updateWhere p f hf).find k = (t.find k).map fun r => if p r then f r else r := by
  have hpred : ((fun r => decide (key r = k)) ∘ fun r => if p r then f r else r) =
      fun r => decide (key r = k) := by
    funext r
    rw [Function.comp_apply, apply_ite key, hf, ite_self]
  rw [find, updateWhere, List.find?_map, hpred, find]

/-- An update is given by what it does to the row with the key. -/
theorem update_congr (t : Table R key) {k : K} {f g : R → R} {hf : ∀ r, key (f r) = key r}
    {hg : ∀ r, key (g r) = key r} (h : ∀ r, t.find k = some r → f r = g r) :
    t.update k f hf = t.update k g hg := by
  have hrows : (t.rows.map fun r => if key r = k then f r else r) =
      t.rows.map fun r => if key r = k then g r else r := by
    apply List.map_congr_left
    intro r hr
    by_cases hkey : key r = k
    · rw [if_pos hkey, if_pos hkey]
      apply h
      rw [← hkey]
      exact find_of_mem hr
    · rw [if_neg hkey, if_neg hkey]
  simp only [update, hrows]

theorem find_deleteKeys (t : Table R key) (k k' : K) :
    (t.deleteKeys [k]).find k' = if k' = k then none else t.find k' := by
  rw [find, deleteKeys, List.find?_filter]
  by_cases hk : k' = k
  · subst hk
    simp
  · rw [if_neg hk, find]
    congr 1
    funext r
    by_cases hr : key r = k'
    · simp [hr, hk]
    · simp [hr]

theorem find_deleteWhere (t : Table R key) (p : R → Bool) (k : K) :
    (t.deleteWhere p).find k = (t.find k).filter fun r => !p r := by
  cases hkept : (t.deleteWhere p).find k with
  | some r =>
      obtain ⟨hmem, hp⟩ := List.mem_filter.mp (List.mem_of_find?_eq_some hkept)
      have hfind := find_of_mem hmem
      rw [key_of_find hkept] at hfind
      rw [hfind, Option.filter_some, if_pos hp]
  | none =>
      cases hfind : t.find k with
      | none => rfl
      | some r =>
          have hmem := List.mem_of_find?_eq_some hfind
          rw [Option.filter_some, if_neg]
          intro hp
          have hkept' := find_of_mem (t := t.deleteWhere p) (List.mem_filter.mpr ⟨hmem, hp⟩)
          rw [key_of_find hfind, hkept] at hkept'
          cases hkept'

/-- `SELECT .. WHERE key = k AND p LIMIT 1`. -/
theorem find?_key_and (t : Table R key) (k : K) (p : R → Bool) :
    (t.rows.find? fun r => decide (key r = k) && p r) = (t.find k).filter p := by
  cases hfind : t.find k with
  | none =>
      refine List.find?_eq_none.mpr fun r hr hboth => ?_
      have hkey : key r = k := of_decide_eq_true (Bool.and_eq_true_iff.mp hboth).1
      rw [← hkey, find_of_mem hr] at hfind
      cases hfind
  | some r =>
      have hkey := key_of_find hfind
      have honly : ∀ r' ∈ t.rows, (decide (key r' = k) && p r') = true → r' = r := by
        intro r' hr' hboth
        have hkey' : key r' = k := of_decide_eq_true (Bool.and_eq_true_iff.mp hboth).1
        exact t.eq_of_key_eq hr' (List.mem_of_find?_eq_some hfind) (hkey'.trans hkey.symm)
      by_cases hp : p r = true
      · rw [Option.filter_some, if_pos hp]
        cases hsome : t.rows.find? fun r => decide (key r = k) && p r with
        | some r' =>
            have hboth : (decide (key r' = k) && p r') = true :=
              List.find?_some (p := fun r => decide (key r = k) && p r) hsome
            rw [honly r' (List.mem_of_find?_eq_some hsome) hboth]
        | none =>
            refine absurd ?_ (List.find?_eq_none.mp hsome r (List.mem_of_find?_eq_some hfind))
            exact Bool.and_eq_true_iff.mpr ⟨decide_eq_true hkey, hp⟩
      · rw [Option.filter_some, if_neg hp]
        refine List.find?_eq_none.mpr fun r' hr' hboth => hp ?_
        rw [← honly r' hr' hboth]
        exact (Bool.and_eq_true_iff.mp hboth).2

/-- `INSERT .. ON CONFLICT DO UPDATE`. -/
def upsert (t : Table R key) (r : R) (f : R → R) (hf : ∀ r, key (f r) = key r) : Table R key :=
  (t.insert? r).getD (t.update (key r) f hf)

theorem find_upsert (t : Table R key) (r : R) (f : R → R) (hf : ∀ r, key (f r) = key r) (k : K) :
    (t.upsert r f hf).find k =
      if k = key r then some (((t.find (key r)).map f).getD r) else t.find k := by
  cases hinsert : t.insert? r with
  | some t' =>
      have hnew : t.find (key r) = none := by
        rw [← Option.not_isSome_iff_eq_none, Option.isSome_iff_exists, ← mem_map_key_iff,
          ← insert?_eq_none_iff, hinsert]
        exact fun hnone => nomatch hnone
      rw [upsert, hinsert, Option.getD_some, find_insert? hinsert, hnew]
      rfl
  | none =>
      obtain ⟨r', hfind⟩ := mem_map_key_iff.mp (insert?_eq_none_iff.mp hinsert)
      rw [upsert, hinsert, Option.getD_none, find_update, hfind]
      rfl

end Find

/-! ## The rows of some keys -/

section Restrict

variable {q : K → Bool}

/-- The rows whose keys `q` holds of. -/
def restrict (q : K → Bool) (t : Table R key) : Table R key where
  rows := t.rows.filter fun r => q (key r)
  nodup := (List.filter_sublist.map key).nodup t.nodup

omit [DecidableEq K] in
theorem rows_restrict (t : Table R key) :
    (t.restrict q).rows = t.rows.filter fun r => q (key r) := rfl

omit [DecidableEq K] in
theorem ext_rows {t t' : Table R key} (h : t.rows = t'.rows) : t = t' := by
  cases t
  cases t'
  cases h
  rfl

omit [DecidableEq K] in
theorem select_restrict {t : Table R key} {p : R → Bool}
    (h : ∀ r, p r = true → q (key r) = true) : (t.restrict q).select p = t.select p := by
  rw [select, restrict, List.filter_filter, select]
  refine List.filter_congr fun r _ => ?_
  cases hp : p r with
  | false => rfl
  | true => rw [h r hp, Bool.and_true]

omit [DecidableEq K] in
theorem restrict_deleteWhere (t : Table R key) (p : R → Bool) :
    (t.deleteWhere p).restrict q = (t.restrict q).deleteWhere p := by
  refine ext_rows ?_
  rw [restrict, deleteWhere, restrict, deleteWhere]
  exact List.filter_comm _ _ _

omit [DecidableEq K] in
theorem restrict_deleteWhere_of_not {t : Table R key} {p : R → Bool}
    (h : ∀ r, p r = true → q (key r) = false) :
    (t.deleteWhere p).restrict q = t.restrict q := by
  refine ext_rows ?_
  rw [rows_restrict, rows_restrict, deleteWhere, List.filter_filter]
  refine List.filter_congr fun r _ => ?_
  cases hp : p r with
  | false => rw [Bool.not_false, Bool.and_true]
  | true => rw [h r hp, Bool.false_and]

omit [DecidableEq K] in
private theorem filter_map_updated (rows : List R) {g : R → R} (hg : ∀ r, key (g r) = key r) :
    (rows.map g).filter (fun r => q (key r)) = (rows.filter fun r => q (key r)).map g := by
  rw [List.filter_map]
  congr 1
  refine List.filter_congr fun r _ => ?_
  rw [Function.comp_apply, hg]

omit [DecidableEq K] in
theorem restrict_updateWhere (t : Table R key) (p : R → Bool) (f : R → R)
    (hf : ∀ r, key (f r) = key r) :
    (t.updateWhere p f hf).restrict q = (t.restrict q).updateWhere p f hf :=
  ext_rows (filter_map_updated t.rows fun r => by rw [apply_ite key, hf, ite_self])

omit [DecidableEq K] in
theorem restrict_updateWhere_of_not {t : Table R key} {p : R → Bool} {f : R → R}
    (hf : ∀ r, key (f r) = key r) (h : ∀ r, p r = true → q (key r) = false) :
    (t.updateWhere p f hf).restrict q = t.restrict q := by
  rw [restrict_updateWhere]
  refine updateWhere_of_select_nil (List.filter_eq_nil_iff.mpr fun r hr hp => ?_)
  have hq := (List.mem_filter.mp hr).2
  rw [h r hp] at hq
  cases hq

theorem restrict_update (t : Table R key) (k : K) (f : R → R) (hf : ∀ r, key (f r) = key r) :
    (t.update k f hf).restrict q = (t.restrict q).update k f hf :=
  ext_rows (filter_map_updated t.rows fun r => by rw [apply_ite key, hf, ite_self])

omit [DecidableEq K] in
theorem mem_keys_restrict {t : Table R key} {k : K} (h : q k = true) :
    k ∈ (t.restrict q).rows.map key ↔ k ∈ t.rows.map key := by
  rw [List.mem_map, List.mem_map]
  constructor
  · rintro ⟨r, hr, rfl⟩
    exact ⟨r, (List.mem_filter.mp hr).1, rfl⟩
  · rintro ⟨r, hr, rfl⟩
    exact ⟨r, List.mem_filter.mpr ⟨hr, h⟩, rfl⟩

theorem restrict_upsert {t : Table R key} {r : R} {f : R → R} {hf : ∀ r, key (f r) = key r}
    (h : q (key r) = true) : (t.upsert r f hf).restrict q = (t.restrict q).upsert r f hf := by
  rw [upsert, upsert]
  cases hinsert : t.insert? r with
  | none =>
      have htaken := (mem_keys_restrict h).mpr (insert?_eq_none_iff.mp hinsert)
      rw [insert?_eq_none_iff.mpr htaken]
      exact restrict_update t (key r) f hf
  | some t' =>
      cases hinsert' : (t.restrict q).insert? r with
      | none =>
          have htaken := (mem_keys_restrict h).mp (insert?_eq_none_iff.mp hinsert')
          rw [insert?_eq_none_iff.mpr htaken] at hinsert
          cases hinsert
      | some t'' =>
          refine ext_rows ?_
          rw [Option.getD_some, Option.getD_some, rows_restrict, rows_of_insert? hinsert,
            rows_of_insert? hinsert', List.filter_append, List.filter_singleton, h]
          rfl

theorem restrict_upsert_of_not {t : Table R key} {r : R} {f : R → R}
    {hf : ∀ r, key (f r) = key r} (h : q (key r) = false) :
    (t.upsert r f hf).restrict q = t.restrict q := by
  rw [upsert]
  cases hinsert : t.insert? r with
  | none =>
      rw [Option.getD_none, restrict_update]
      refine ext_rows ((List.map_congr_left fun r' hr' => ?_).trans (List.map_id _))
      have hq := (List.mem_filter.mp hr').2
      refine if_neg fun hkey => ?_
      rw [hkey, h] at hq
      cases hq
  | some t' =>
      refine ext_rows ?_
      rw [Option.getD_some, rows_restrict, rows_of_insert? hinsert, List.filter_append,
        List.filter_singleton, h]
      exact List.append_nil _

end Restrict

end Table

end PlexSpaces.Lib
