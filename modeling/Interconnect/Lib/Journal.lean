import Mathlib.Data.List.Nodup

/-! Append-only lists that hold one entry for each key: an entry whose key is taken is ignored. -/

namespace Journals

variable {ε κ : Type*}

structure Journal (key : ε → κ) where
  entries : List ε
  nodup : (entries.map key).Nodup

namespace Journal

variable {key : ε → κ}

def empty : Journal key := ⟨[], List.nodup_nil⟩

def append [DecidableEq κ] (j : Journal key) (x : ε) : Journal key :=
  if h : key x ∈ j.entries.map key then j
  else {
    entries := j.entries ++ [x]
    nodup := by
      rw [List.map_append, List.map_singleton]
      exact List.nodup_append.mpr ⟨j.nodup, List.nodup_singleton _,
        fun a ha b hb hab => h (List.mem_singleton.mp hb ▸ hab ▸ ha)⟩ }

variable [DecidableEq κ] {j : Journal key} {x y : ε}

theorem mem_append : y ∈ (j.append x).entries ↔
    y ∈ j.entries ∨ y = x ∧ key x ∉ j.entries.map key := by
  unfold append
  split_ifs with h
  · simp [h]
  · simp [h]

theorem mem_append_imp (h : y ∈ (j.append x).entries) : y ∈ j.entries ∨ y = x := by
  rcases mem_append.mp h with h | ⟨h, -⟩
  · exact Or.inl h
  · exact Or.inr h

theorem key_mem_append (j : Journal key) (x : ε) : key x ∈ (j.append x).entries.map key := by
  by_cases h : key x ∈ j.entries.map key
  · obtain ⟨y, hy, hk⟩ := List.mem_map.mp h
    exact List.mem_map.mpr ⟨y, mem_append.mpr (Or.inl hy), hk⟩
  · exact List.mem_map.mpr ⟨x, mem_append.mpr (Or.inr ⟨rfl, h⟩), rfl⟩

theorem prefix_append (j : Journal key) (x : ε) : j.entries <+: (j.append x).entries := by
  unfold append
  split_ifs with h
  · exact List.prefix_rfl
  · exact List.prefix_append _ _

theorem getElem?_append {i : ℕ} (h : (j.append x).entries[i]? = some y) :
    j.entries[i]? = some y ∨ y = x ∧ j.entries.length ≤ i := by
  unfold append at h
  split_ifs at h with hkey
  · exact Or.inl h
  · rcases Nat.lt_or_ge i j.entries.length with hlt | hge
    · exact Or.inl ((List.getElem?_append_left hlt).symm.trans h)
    · rw [List.getElem?_append_right hge] at h
      exact Or.inr ⟨List.mem_singleton.mp (List.mem_of_getElem? h), hge⟩

end Journal

/-- Every entry of the second kind has one of the first kind before it. -/
def Precedes (P Q : ε → Prop) (l : List ε) : Prop :=
  ∀ (j : ℕ) (y : ε), l[j]? = some y → Q y → ∃ i < j, ∃ x, l[i]? = some x ∧ P x

/-- A journal keeps an order if no entry of the second kind is offered before one of the first kind
is held. -/
theorem Precedes.append [DecidableEq κ] {key : ε → κ} {P Q : ε → Prop} {j : Journal key}
    (h : Precedes P Q j.entries) {x : ε} (hx : Q x → ∃ y ∈ j.entries, P y) :
    Precedes P Q (j.append x).entries := by
  intro k y hk hq
  have hkept : ∀ {i : ℕ} {z : ε}, j.entries[i]? = some z → (j.append x).entries[i]? = some z := by
    intro i z hi
    obtain ⟨t, ht⟩ := j.prefix_append x
    rw [← ht, List.getElem?_append_left (List.getElem?_eq_some_iff.mp hi).1, hi]
  rcases Journal.getElem?_append hk with hold | ⟨rfl, hge⟩
  · obtain ⟨i, hi, z, hz, hp⟩ := h k y hold hq
    exact ⟨i, hi, z, hkept hz, hp⟩
  · obtain ⟨z, hz, hp⟩ := hx hq
    obtain ⟨i, hi⟩ := List.mem_iff_getElem?.mp hz
    exact ⟨i, Nat.lt_of_lt_of_le (List.getElem?_eq_some_iff.mp hi).1 hge, z, hkept hi, hp⟩

end Journals
