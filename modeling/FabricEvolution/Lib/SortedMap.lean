import Mathlib

/-!
# Ordered maps as sorted association lists

* `assocFind`, `assocInsert`, `assocErase` : an ordered map whose entries are kept in ascending key
  order; the lookup laws (`assocFind_insert`, `assocFind_erase`) need no order;
* `SortedMap` : the entries with the order as a field; `find_insert`, `find_erase`, `find_modify`, `find_mapValues`;
* `SortedMap.ext_find` : two maps with the same lookups are equal.
-/

namespace FabricEvolution.Lib

variable {κ α β : Type*}

/-! ## Association lists -/

/-- The value stored under `k`, if any. -/
def assocFind [DecidableEq κ] (k : κ) : List (κ × α) → Option α
  | [] => none
  | (k', v) :: rest => if k' = k then some v else assocFind k rest

/-- Insert or assign, at the place the order of the keys gives. -/
def assocInsert [LinearOrder κ] (k : κ) (v : α) : List (κ × α) → List (κ × α)
  | [] => [(k, v)]
  | (k', v') :: rest =>
    if k < k' then (k, v) :: (k', v') :: rest
    else if k = k' then (k, v) :: rest
    else (k', v') :: assocInsert k v rest

/-- Drop the entry of `k`. -/
def assocErase [DecidableEq κ] (k : κ) (l : List (κ × α)) : List (κ × α) :=
  l.filter fun e => decide (e.1 ≠ k)

/-- Apply `f` to the value stored under `k`. -/
def assocModify [DecidableEq κ] (k : κ) (f : α → α) (l : List (κ × α)) : List (κ × α) :=
  l.map fun e => if e.1 = k then (e.1, f e.2) else e

@[simp] theorem assocFind_nil [DecidableEq κ] (k : κ) : assocFind k ([] : List (κ × α)) = none := rfl

theorem assocFind_cons [DecidableEq κ] (k : κ) (e : κ × α) (l : List (κ × α)) :
    assocFind k (e :: l) = if e.1 = k then some e.2 else assocFind k l := rfl

theorem mem_of_assocFind [DecidableEq κ] {k : κ} {v : α} {l : List (κ × α)}
    (h : assocFind k l = some v) : (k, v) ∈ l := by
  induction l with
  | nil => simp at h
  | cons e l ih =>
    rw [assocFind_cons] at h
    split_ifs at h with hk
    · obtain ⟨k', v'⟩ := e
      simp only [Option.some.injEq] at h hk
      subst hk; subst h
      exact List.mem_cons_self
    · exact List.mem_cons_of_mem _ (ih h)

theorem assocFind_insert [LinearOrder κ] (k k' : κ) (v : α) (l : List (κ × α)) :
    assocFind k' (assocInsert k v l) = if k = k' then some v else assocFind k' l := by
  induction l with
  | nil => simp [assocInsert, assocFind]
  | cons e l ih =>
    obtain ⟨k₀, v₀⟩ := e
    rw [assocInsert]
    by_cases hk : k = k'
    · subst hk
      rw [if_pos (rfl : k = k)] at ih ⊢
      split_ifs with h1 h2
      · simp [assocFind_cons]
      · simp [assocFind_cons]
      · rw [assocFind_cons, if_neg (Ne.symm h2), ih]
    · rw [if_neg hk] at ih ⊢
      split_ifs with h1 h2
      · rw [assocFind_cons, if_neg hk]
      · subst h2
        rw [assocFind_cons, assocFind_cons, if_neg hk, if_neg hk]
      · rw [assocFind_cons, assocFind_cons, ih]

theorem assocFind_erase [DecidableEq κ] (k k' : κ) (l : List (κ × α)) :
    assocFind k' (assocErase k l) = if k = k' then none else assocFind k' l := by
  induction l with
  | nil => simp [assocErase]
  | cons e l ih =>
    unfold assocErase at ih ⊢
    by_cases h : e.1 = k
    · rw [List.filter_cons_of_neg (by simp [h]), ih, assocFind_cons, h]
      split_ifs <;> rfl
    · rw [List.filter_cons_of_pos (by simp [h]), assocFind_cons, ih, assocFind_cons]
      split_ifs with h1 h2
      · exact absurd (h1.trans h2.symm) h
      all_goals rfl

theorem length_assocErase_lt [DecidableEq κ] {k : κ} {v : α} {l : List (κ × α)} (h : assocFind k l = some v) :
    (assocErase k l).length < l.length := by
  refine List.length_filter_lt_length_iff_exists.mpr ⟨(k, v), mem_of_assocFind h, ?_⟩
  simp

theorem assocFind_modify [DecidableEq κ] (k k' : κ) (f : α → α) (l : List (κ × α)) :
    assocFind k' (assocModify k f l) = if k = k' then (assocFind k' l).map f else assocFind k' l := by
  induction l with
  | nil => simp [assocModify]
  | cons e l ih =>
    have hstep : assocFind k' (assocModify k f (e :: l)) =
        if e.1 = k' then some (if e.1 = k then f e.2 else e.2) else assocFind k' (assocModify k f l) := by
      rw [assocModify, List.map_cons, assocFind_cons]
      by_cases hk : e.1 = k <;> simp only [hk, if_true, if_false] <;> rfl
    rw [hstep, ih, assocFind_cons]
    by_cases h1 : e.1 = k' <;> by_cases h2 : k = k'
    · simp [h1, h2]
    · simp [h1, h2, Ne.symm h2]
    · simp [h1, h2]
    · simp [h1, h2]

theorem assocFind_map [DecidableEq κ] (k : κ) (f : α → β) (l : List (κ × α)) :
    assocFind k (l.map fun e => (e.1, f e.2)) = (assocFind k l).map f := by
  induction l with
  | nil => rfl
  | cons e l ih =>
    rw [List.map_cons, assocFind_cons, assocFind_cons, ih]
    split_ifs <;> rfl

/-! ## The order of the keys -/

section Order
variable [LinearOrder κ]

/-- Entries in strictly ascending key order. -/
def KeysAscend (l : List (κ × α)) : Prop := l.Pairwise fun a b => a.1 < b.1

/-- The check of `KeysAscend`, neighbour by neighbour. -/
def keysAscendIn : List (κ × α) → Bool
  | a :: b :: l => a.1 < b.1 && keysAscendIn (b :: l)
  | _ => true

theorem keysAscend_of_keysAscendIn {l : List (κ × α)} (h : keysAscendIn l = true) : KeysAscend l := by
  induction l with
  | nil => exact List.Pairwise.nil
  | cons a l ih =>
    cases l with
    | nil => exact List.pairwise_singleton _ a
    | cons b l =>
      obtain ⟨hlt, hrest⟩ := Bool.and_eq_true_iff.mp h
      have hlt : a.1 < b.1 := of_decide_eq_true hlt
      have htail : KeysAscend (b :: l) := ih hrest
      refine List.pairwise_cons.mpr ⟨fun c hc => ?_, htail⟩
      rcases List.mem_cons.mp hc with rfl | hc
      · exact hlt
      · exact hlt.trans ((List.pairwise_cons.mp htail).1 c hc)

theorem mem_assocInsert {k : κ} {v : α} {e : κ × α} {l : List (κ × α)} (h : e ∈ assocInsert k v l) :
    e = (k, v) ∨ e ∈ l := by
  induction l with
  | nil => simpa [assocInsert] using h
  | cons e' l ih =>
    obtain ⟨k', v'⟩ := e'
    rw [assocInsert] at h
    split_ifs at h with h1 h2
    · simpa using h
    · rcases List.mem_cons.mp h with h | h
      · exact .inl h
      · exact .inr (List.mem_cons_of_mem _ h)
    · rcases List.mem_cons.mp h with h | h
      · exact .inr (h ▸ List.mem_cons_self)
      · exact (ih h).imp_right (List.mem_cons_of_mem _)

theorem KeysAscend.insert {l : List (κ × α)} (h : KeysAscend l) (k : κ) (v : α) :
    KeysAscend (assocInsert k v l) := by
  induction l with
  | nil => simp [assocInsert, KeysAscend]
  | cons e l ih =>
    obtain ⟨k', v'⟩ := e
    obtain ⟨hhd, htl⟩ := List.pairwise_cons.mp h
    rw [assocInsert]
    split_ifs with h1 h2
    · refine List.pairwise_cons.mpr ⟨fun a ha => ?_, h⟩
      rcases List.mem_cons.mp ha with rfl | ha
      · exact h1
      · exact h1.trans (hhd a ha)
    · subst h2
      exact List.pairwise_cons.mpr ⟨hhd, htl⟩
    · refine List.pairwise_cons.mpr ⟨fun a ha => ?_, ih htl⟩
      rcases mem_assocInsert ha with rfl | ha
      · exact lt_of_le_of_ne (not_lt.mp h1) (Ne.symm h2)
      · exact hhd a ha

theorem KeysAscend.erase {l : List (κ × α)} (h : KeysAscend l) (k : κ) : KeysAscend (assocErase k l) :=
  List.Pairwise.filter _ h

theorem KeysAscend.modify {l : List (κ × α)} (h : KeysAscend l) (k : κ) (f : α → α) :
    KeysAscend (assocModify k f l) := by
  refine List.pairwise_map.mpr (h.imp fun {a b} hab => ?_)
  split_ifs <;> exact hab

theorem KeysAscend.mapValues {l : List (κ × α)} (h : KeysAscend l) (f : α → β) :
    KeysAscend (l.map fun e => (e.1, f e.2)) :=
  List.pairwise_map.mpr h

theorem KeysAscend.find_tail {e : κ × α} {l : List (κ × α)} (h : KeysAscend (e :: l)) :
    assocFind e.1 l = none := by
  cases hf : assocFind e.1 l with
  | none => rfl
  | some v => exact absurd ((List.pairwise_cons.mp h).1 _ (mem_of_assocFind hf)) (lt_irrefl e.1)

theorem KeysAscend.find_of_mem {l : List (κ × α)} (h : KeysAscend l) {k : κ} {v : α}
    (hm : (k, v) ∈ l) : assocFind k l = some v := by
  induction l with
  | nil => simp at hm
  | cons e l ih =>
    obtain ⟨hhd, htl⟩ := List.pairwise_cons.mp h
    rw [assocFind_cons]
    rcases List.mem_cons.mp hm with rfl | hm
    · exact if_pos rfl
    · rw [if_neg (hhd _ hm).ne, ih htl hm]

/-- An entry with a greater key is inserted at the end. -/
theorem assocInsert_last {l : List (κ × α)} {k : κ} {v : α} (h : KeysAscend (l ++ [(k, v)])) :
    assocInsert k v l = l ++ [(k, v)] := by
  induction l with
  | nil => rfl
  | cons e l ih =>
    rw [List.cons_append, KeysAscend, List.pairwise_cons] at h
    have hlt : e.1 < k := h.1 (k, v) (by simp)
    rw [assocInsert, if_neg (not_lt.2 hlt.le), if_neg hlt.ne', ih h.2, List.cons_append]

/-- Entries that come in order are appended. -/
theorem foldl_assocInsert {l entries : List (κ × α)} (h : KeysAscend (l ++ entries)) :
    entries.foldl (fun out entry => assocInsert entry.1 entry.2 out) l = l ++ entries := by
  induction entries generalizing l with
  | nil => rw [List.foldl_nil, List.append_nil]
  | cons entry entries ih =>
    rw [← List.singleton_append, ← List.append_assoc] at h
    rw [List.foldl_cons, assocInsert_last (List.pairwise_append.1 h).1, ih h, List.append_assoc, List.singleton_append]

theorem assocFind_before {l : List (κ × α)} {k : κ} {v : α} (h : KeysAscend (l ++ [(k, v)])) : assocFind k l = none := by
  cases hfind : assocFind k l with
  | none => rfl
  | some found =>
    have hlt : k < k := (List.pairwise_append.1 h).2.2 _ (mem_of_assocFind hfind) _ (List.mem_singleton_self _)
    exact absurd hlt (lt_irrefl _)

theorem length_assocInsert_le (k : κ) (v : α) (l : List (κ × α)) : (assocInsert k v l).length ≤ l.length + 1 := by
  induction l with
  | nil => simp [assocInsert]
  | cons e l ih =>
    rw [assocInsert]
    split_ifs
    · simp
    · simp
    · simpa using ih

/-- The entry of a known key is assigned in place. -/
theorem length_assocInsert_mem {k : κ} {v : α} {l : List (κ × α)} (hk : (assocFind k l).isSome) (h : KeysAscend l) :
    (assocInsert k v l).length = l.length := by
  induction l with
  | nil => simp at hk
  | cons e l ih =>
    rw [assocFind_cons] at hk
    rw [assocInsert]
    split_ifs with hlt heq
    · -- Every later key is greater still.
      exfalso
      rw [if_neg hlt.ne'] at hk
      obtain ⟨found, hfound⟩ := Option.isSome_iff_exists.1 hk
      have := (List.pairwise_cons.1 h).1 _ (mem_of_assocFind hfound)
      exact absurd (this.trans hlt) (lt_irrefl _)
    · rfl
    · rw [if_neg (Ne.symm heq)] at hk
      simpa using ih hk (List.pairwise_cons.1 h).2

/-- An entry of a new key joins the others. -/
theorem assocInsert_perm {k : κ} {l : List (κ × α)} (h : assocFind k l = none) (v : α) : (assocInsert k v l).Perm ((k, v) :: l) := by
  induction l with
  | nil => exact .refl _
  | cons e l ih =>
    rw [assocFind_cons] at h
    split_ifs at h with hne
    rw [assocInsert]
    split_ifs with hlt heq
    · exact .refl _
    · exact absurd heq.symm hne
    · exact ((ih h).cons e).trans (.swap _ _ _)

theorem assocFind_eq_none {k : κ} {l : List (κ × α)} (h : k ∉ l.map Prod.fst) : assocFind k l = none := by
  cases hfind : assocFind k l with
  | none => rfl
  | some v => exact absurd (List.mem_map_of_mem (mem_of_assocFind hfind)) h

theorem KeysAscend.foldl_insert {l : List (κ × α)} (h : KeysAscend l) (entries : List (κ × α)) :
    KeysAscend (entries.foldl (fun out entry => assocInsert entry.1 entry.2 out) l) := by
  induction entries generalizing l with
  | nil => exact h
  | cons entry entries ih => exact ih (h.insert entry.1 entry.2)

/-- Entries of new keys are joined to the others, in whatever order. -/
theorem foldl_assocInsert_perm {l entries : List (κ × α)} (h : ((l ++ entries).map Prod.fst).Nodup) :
    (entries.foldl (fun out entry => assocInsert entry.1 entry.2 out) l).Perm (l ++ entries) := by
  induction entries generalizing l with
  | nil => rw [List.foldl_nil, List.append_nil]
  | cons entry entries ih =>
    have hnew : assocFind entry.1 l = none := by
      refine assocFind_eq_none fun hmem => ?_
      rw [List.map_append, List.map_cons] at h
      exact (List.nodup_append.1 h).2.2 _ hmem _ List.mem_cons_self rfl
    have hmove : (assocInsert entry.1 entry.2 l ++ entries).Perm (l ++ entry :: entries) :=
      ((assocInsert_perm hnew entry.2).append_right entries).trans List.perm_middle.symm
    exact (ih ((hmove.map Prod.fst).nodup_iff.2 h)).trans hmove

/-- Ascending lists are determined by their lookups. -/
theorem KeysAscend.ext {l₁ l₂ : List (κ × α)} (h₁ : KeysAscend l₁) (h₂ : KeysAscend l₂)
    (h : ∀ k, assocFind k l₁ = assocFind k l₂) : l₁ = l₂ := by
  have irrefl : ∀ a : κ × α, ¬ a.1 < a.1 := fun a => lt_irrefl a.1
  have nodup : ∀ {l : List (κ × α)}, KeysAscend l → l.Nodup := by
    intro l hl
    refine List.Pairwise.imp (fun {a b} hab e => ?_) hl
    subst e
    exact irrefl a hab
  refine List.Perm.eq_of_pairwise (fun a b _ _ hab hba => absurd (hab.trans hba) (irrefl a)) h₁ h₂ ?_
  refine (List.perm_ext_iff_of_nodup (nodup h₁) (nodup h₂)).mpr fun ⟨k, v⟩ => ?_
  constructor
  · exact fun hm => mem_of_assocFind ((h k).symm.trans (h₁.find_of_mem hm))
  · exact fun hm => mem_of_assocFind ((h k).trans (h₂.find_of_mem hm))

end Order

/-! ## Maps -/

/-- An ordered map: the entries, in ascending key order. -/
structure SortedMap (κ α : Type*) [LinearOrder κ] where
  entries : List (κ × α)
  ascend : KeysAscend entries

namespace SortedMap
variable [LinearOrder κ]

def empty : SortedMap κ α := ⟨[], List.Pairwise.nil⟩

def find (m : SortedMap κ α) (k : κ) : Option α := assocFind k m.entries

def insert (m : SortedMap κ α) (k : κ) (v : α) : SortedMap κ α :=
  ⟨assocInsert k v m.entries, m.ascend.insert k v⟩

def modify (m : SortedMap κ α) (k : κ) (f : α → α) : SortedMap κ α :=
  ⟨assocModify k f m.entries, m.ascend.modify k f⟩

def erase (m : SortedMap κ α) (k : κ) : SortedMap κ α :=
  ⟨assocErase k m.entries, m.ascend.erase k⟩

def mapValues (m : SortedMap κ α) (f : α → β) : SortedMap κ β :=
  ⟨m.entries.map fun e => (e.1, f e.2), m.ascend.mapValues f⟩

def keys (m : SortedMap κ α) : List κ := m.entries.map Prod.fst

variable (m : SortedMap κ α) (k k' : κ)

@[simp] theorem find_empty : (empty : SortedMap κ α).find k = none := rfl

@[simp] theorem find_insert (v : α) :
    (m.insert k v).find k' = if k = k' then some v else m.find k' := assocFind_insert k k' v m.entries

@[simp] theorem find_erase : (m.erase k).find k' = if k = k' then none else m.find k' :=
  assocFind_erase k k' m.entries

@[simp] theorem find_modify (f : α → α) :
    (m.modify k f).find k' = if k = k' then (m.find k').map f else m.find k' :=
  assocFind_modify k k' f m.entries

@[simp] theorem find_mapValues (f : α → β) : (m.mapValues f).find k = (m.find k).map f :=
  assocFind_map k f m.entries

theorem ext_find {m₁ m₂ : SortedMap κ α} (h : ∀ k, m₁.find k = m₂.find k) : m₁ = m₂ := by
  obtain ⟨l₁, h₁⟩ := m₁
  obtain ⟨l₂, h₂⟩ := m₂
  have : l₁ = l₂ := h₁.ext h₂ h
  subst this; rfl

end SortedMap

end FabricEvolution.Lib
