import Ascent.Pairs
import Ascent.Proofs.Merge
import Mathlib.Data.List.Nodup

/-!
Values put under names.

Putting a value is a merge of one more pair, in which the later value stands. So the names after
several values are put are those that came up, each in the place of its first mention, and under
each name stands its last value. Pairs that were put together first and put after others then leave
what they leave when they are put one by one.

Main exports: `Pairs.map_fst_ofList`, `Pairs.get?_ofList`, `Pairs.foldl_put_ofList`,
`Pairs.ofList_of_nodup`.
-/

namespace Ascent
namespace Pairs

variable {α : Type} {ps before : Pairs α} {name : String} {a : α} {p : String × α}

/-! ### One value -/

/-- The value of a later pair under the name of an earlier one. -/
def restate (first later : String × α) : String × α := (first.1, later.2)

theorem fst_restate (first later : String × α) : (restate first later).1 = first.1 := rfl

theorem put_eq_mergeInto (ps : Pairs α) (name : String) (a : α) :
    ps.put name a = mergeInto Prod.fst restate (name, a) ps := by
  induction ps with
  | nil => rfl
  | cons p rest ih =>
      rw [put, mergeInto, ih]
      rfl

theorem map_fst_put (ps : Pairs α) (name : String) (a : α) :
    (ps.put name a).map Prod.fst =
      if name ∈ ps.map Prod.fst then ps.map Prod.fst else ps.map Prod.fst ++ [name] := by
  rw [put_eq_mergeInto, map_key_mergeInto fst_restate]

theorem put_of_not_mem (fresh : name ∉ ps.map Prod.fst) (a : α) :
    ps.put name a = ps ++ [(name, a)] := by
  rw [put_eq_mergeInto, mergeInto_of_not_mem fresh]

theorem mem_put (member : p ∈ ps.put name a) : p ∈ ps ∨ p = (name, a) := by
  rw [put_eq_mergeInto] at member
  rcases mem_mergeInto member with old | new | ⟨first, -, same, laid⟩
  · exact .inl old
  · exact .inr new
  · exact .inr (laid.trans (congrArg (·, a) same))

/-- Putting a value under a name leaves no name twice. -/
theorem nodup_put (nodup : (ps.map Prod.fst).Nodup) (name : String) (a : α) :
    ((ps.put name a).map Prod.fst).Nodup := by
  rw [map_fst_put]
  split
  · exact nodup
  · next fresh =>
      rw [List.nodup_append]
      refine ⟨nodup, List.nodup_singleton name, ?_⟩
      rintro known there new own rfl
      exact fresh (List.mem_singleton.mp own ▸ there)

/-- Of two values put under a name the second one stands. -/
theorem put_put_self (ps : Pairs α) (name : String) (a b : α) :
    (ps.put name a).put name b = ps.put name b := by
  induction ps with
  | nil => simp [put]
  | cons p rest ih =>
      by_cases same : p.1 = name
      · simp [put, same]
      · simp [put, same, ih]

/-- A name that is there keeps its place, so it does not matter when its value is put. -/
theorem put_comm (known : name ∈ ps.map Prod.fst) {other : String} (apart : other ≠ name)
    (a b : α) : (ps.put other b).put name a = (ps.put name a).put other b := by
  induction ps with
  | nil => simp at known
  | cons p rest ih =>
      by_cases own : p.1 = name
      · simp [put, own, Ne.symm apart]
      · have later : name ∈ rest.map Prod.fst := by
          simpa [Ne.symm own] using known
        by_cases same : p.1 = other
        · simp [put, same, apart]
        · simp [put, own, same, ih later]

theorem filter_put_self (ps : Pairs α) (name : String) (a : α) :
    (ps.put name a).filter (·.1 ≠ name) = ps.filter (·.1 ≠ name) := by
  induction ps with
  | nil => simp [put]
  | cons p rest ih =>
      rw [put]
      split
      · next same => simp [same]
      · next other => simpa [other] using ih

/-! ### Looking up -/

theorem mem_of_get? (h : ps.get? name = some a) : (name, a) ∈ ps := by
  induction ps with
  | nil => cases h
  | cons p rest ih =>
      rw [get?] at h
      split at h
      · next same =>
          rw [← same, ← Option.some.inj h]
          exact List.mem_cons_self
      · exact List.mem_cons_of_mem p (ih h)

theorem get?_of_mem (nodup : (ps.map Prod.fst).Nodup) (member : (name, a) ∈ ps) :
    ps.get? name = some a := by
  induction ps with
  | nil => cases member
  | cons p rest ih =>
      obtain ⟨fresh, nodup⟩ := List.nodup_cons.mp nodup
      rw [get?]
      rcases List.mem_cons.mp member with rfl | later
      · exact if_pos rfl
      · have other : p.1 ≠ name := by
          rintro rfl
          exact fresh (List.mem_map.mpr ⟨_, later, rfl⟩)
        rw [if_neg other, ih nodup later]

theorem last?_of_mem (nodup : (ps.map Prod.fst).Nodup) (member : (name, a) ∈ ps) :
    ps.last? name = some a := by
  apply get?_of_mem
  · rw [List.map_reverse, List.nodup_reverse]
    exact nodup
  · exact List.mem_reverse.mpr member

/-- Where each name is there once, its only value is its last. -/
theorem last?_eq_get? (nodup : (ps.map Prod.fst).Nodup) (name : String) :
    ps.last? name = ps.get? name := by
  refine Option.ext fun a => ⟨fun last => ?_, fun there => last?_of_mem nodup (mem_of_get? there)⟩
  exact get?_of_mem nodup (List.mem_reverse.mp (mem_of_get? last))

theorem last?_append_singleton (ps : Pairs α) (p : String × α) (name : String) :
    last? (ps ++ [p]) name = if p.1 = name then some p.2 else ps.last? name := by
  rw [last?, List.reverse_append]
  rfl

theorem last?_eq_getLast? (ps : Pairs α) (name : String) :
    ps.last? name = (ps.filter (·.1 == name)).getLast?.map Prod.snd := by
  induction ps using List.reverseRecOn with
  | nil => rfl
  | append_singleton rest p ih =>
      rw [last?_append_singleton, ih, List.filter_append]
      by_cases same : p.1 = name <;> simp [same]

/-! ### Several values -/

theorem ofList_append_singleton (ps : Pairs α) (p : String × α) :
    ofList (ps ++ [p]) = (ofList ps).put p.1 p.2 := by
  rw [ofList, List.foldl_append]
  rfl

theorem ofList_eq_mergeBy (ps : Pairs α) :
    ofList ps = mergeBy Prod.fst restate ps :=
  congrArg (fun step => ps.foldl step [])
    (funext fun done => funext fun p => put_eq_mergeInto done p.1 p.2)

/-- Each name stands in the place of its first mention. -/
theorem map_fst_ofList (ps : Pairs α) : (ofList ps).map Prod.fst = (ps.map Prod.fst).eraseDups := by
  rw [ofList_eq_mergeBy, map_key_mergeBy fst_restate]

theorem nodup_ofList (ps : Pairs α) : ((ofList ps).map Prod.fst).Nodup := by
  rw [map_fst_ofList]
  exact nodup_eraseDups _

/-- Pairs of distinct names are as they are when put one after another. -/
theorem ofList_of_nodup (nodup : (ps.map Prod.fst).Nodup) : ofList ps = ps := by
  rw [ofList_eq_mergeBy, mergeBy_eq_self nodup]

theorem mem_ofList (member : p ∈ ofList ps) : p ∈ ps := by
  refine (List.foldlRecOn ps _ (motive := fun done => ∀ p ∈ done, p ∈ ps) (by simp)
    fun done kept x there p member => ?_) p member
  rcases mem_put member with old | rfl
  · exact kept p old
  · exact there

/-- After pairs are put after others, a name that they mention has their last value for it. -/
theorem get?_foldl_put (ps before : Pairs α) (name : String) :
    (ps.foldl (fun done (n, v) => done.put n v) before).get? name =
      (ps.last? name).or (before.get? name) := by
  induction ps using List.reverseRecOn with
  | nil => rfl
  | append_singleton rest p ih =>
      rw [List.foldl_append, List.foldl_cons, List.foldl_nil, get?_put, ih, last?_append_singleton]
      by_cases same : p.1 = name
      · simp [same]
      · simp [same, Ne.symm same]

theorem get?_ofList (ps : Pairs α) (name : String) : (ofList ps).get? name = ps.last? name :=
  (get?_foldl_put ps [] name).trans Option.or_none

/-- Pairs of distinct names that are put after a pair of some name: those of other names follow as
they are. -/
theorem filter_ofList_cons (nodup : (ps.map Prod.fst).Nodup) (name : String) (a : α) :
    (ofList ((name, a) :: ps)).filter (·.1 ≠ name) = ps.filter (·.1 ≠ name) := by
  have onto (done : Pairs α)
      (fresh : ∀ p ∈ ps, p.1 ≠ name → p.1 ∉ done.map Prod.fst) :
      (ps.foldl (fun done p => put done p.1 p.2) done).filter (·.1 ≠ name) =
        done.filter (·.1 ≠ name) ++ ps.filter (·.1 ≠ name) := by
    induction ps generalizing done with
    | nil => simp
    | cons p rest ih =>
        obtain ⟨new, nodup⟩ := List.nodup_cons.mp nodup
        rw [List.foldl_cons, ih nodup]
        · by_cases same : p.1 = name
          · subst same
            rw [filter_put_self, List.filter_cons_of_neg (by simp)]
          · rw [put_of_not_mem (fresh p List.mem_cons_self same)]
            simp [same]
        · intro q member other known
          obtain ⟨r, there, same⟩ := List.mem_map.mp known
          rcases mem_put there with old | rfl
          · exact fresh q (List.mem_cons_of_mem p member) other (List.mem_map.mpr ⟨r, old, same⟩)
          · exact new (List.mem_map.mpr ⟨q, member, same.symm⟩)
  exact (onto [(name, a)] (by simp)).trans (by simp)

/-- A value for a name that is there may be put before pairs of other names as well as after
them. -/
theorem put_foldl_put (known : name ∈ before.map Prod.fst) (apart : name ∉ ps.map Prod.fst)
    (a : α) :
    (ps.foldl (fun done (n, v) => done.put n v) before).put name a =
      ps.foldl (fun done (n, v) => done.put n v) (before.put name a) := by
  induction ps generalizing before with
  | nil => rfl
  | cons p rest ih =>
      simp only [List.map_cons, List.mem_cons, not_or] at apart
      have still : name ∈ (before.put p.1 p.2).map Prod.fst := by
        rw [map_fst_put]
        split
        · exact known
        · exact List.mem_append_left _ known
      rw [List.foldl_cons, List.foldl_cons, ih still apart.2, put_comm known (Ne.symm apart.1)]

theorem mem_map_fst_put (ps : Pairs α) (name : String) (a : α) :
    name ∈ (ps.put name a).map Prod.fst := by
  rw [map_fst_put]
  split
  · assumption
  · exact List.mem_append_right _ List.mem_cons_self

/-- A value that replaces another one among pairs of distinct names, or comes behind them, may as
well be put when all of them are. -/
theorem foldl_put_put (nodup : (ps.map Prod.fst).Nodup) (before : Pairs α) (name : String) (a : α) :
    (ps.put name a).foldl (fun done (n, v) => done.put n v) before =
      (ps.foldl (fun done (n, v) => done.put n v) before).put name a := by
  induction ps generalizing before with
  | nil => rfl
  | cons p rest ih =>
      obtain ⟨fresh, nodup⟩ := List.nodup_cons.mp nodup
      rw [put]
      split
      · next same =>
          subst same
          rw [List.foldl_cons, List.foldl_cons,
            put_foldl_put (mem_map_fst_put before p.1 p.2) fresh, put_put_self]
      · rw [List.foldl_cons, List.foldl_cons, ih nodup]

/-- Pairs put together first and then after others leave what they leave one by one. -/
theorem foldl_put_ofList (ps before : Pairs α) :
    (ofList ps).foldl (fun done (n, v) => done.put n v) before =
      ps.foldl (fun done (n, v) => done.put n v) before := by
  induction ps using List.reverseRecOn with
  | nil => rfl
  | append_singleton rest p ih =>
      rw [ofList_append_singleton, foldl_put_put (nodup_ofList rest), ih, List.foldl_append]
      rfl

end Pairs
end Ascent
