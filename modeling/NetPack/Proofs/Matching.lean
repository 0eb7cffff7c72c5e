import Mathlib.Data.List.Forall2

/-!
# Lists that match element by element

What one list has at a position, or anywhere, has a partner in a list that matches it.
-/

namespace NetPack

section Matching

variable {α β γ : Type} {R : α → β → Prop} {l : List α} {m : List β}

theorem forall₂_getElem? (h : List.Forall₂ R l m) {k : Nat} {a : α} (hk : l[k]? = some a) :
    ∃ b, m[k]? = some b ∧ R a b := by
  induction h generalizing k with
  | nil => simp at hk
  | @cons a' b' _ _ hr _ ih =>
    cases k with
    | zero =>
      obtain rfl : a' = a := by simpa using hk
      exact ⟨b', rfl, hr⟩
    | succ k => exact ih (by simpa using hk)

theorem exists_of_mem_left (h : List.Forall₂ R l m) {a : α} (ha : a ∈ l) : ∃ b ∈ m, R a b := by
  obtain ⟨k, hk⟩ := List.mem_iff_getElem?.mp ha
  obtain ⟨b, hb, hab⟩ := forall₂_getElem? h hk
  exact ⟨b, List.mem_of_getElem? hb, hab⟩

theorem exists_of_mem_right (h : List.Forall₂ R l m) {b : β} (hb : b ∈ m) : ∃ a ∈ l, R a b :=
  exists_of_mem_left h.flip hb

theorem map_eq_of_forall₂ {f : α → γ} {g : β → γ} (h : List.Forall₂ R l m)
    (hfg : ∀ a b, b ∈ m → R a b → f a = g b) : l.map f = m.map g := by
  induction h with
  | nil => rfl
  | cons hr _ ih =>
    rw [List.map_cons, List.map_cons, hfg _ _ List.mem_cons_self hr,
      ih fun a b hb => hfg a b (List.mem_cons_of_mem _ hb)]

theorem forall₂_of_mem_right {S : α → β → Prop} (h : List.Forall₂ R l m)
    (hS : ∀ a b, b ∈ m → R a b → S a b) : List.Forall₂ S l m := by
  induction h with
  | nil => exact .nil
  | cons hr _ ih =>
    exact .cons (hS _ _ List.mem_cons_self hr) (ih fun a b hb => hS a b (List.mem_cons_of_mem _ hb))

end Matching

end NetPack
