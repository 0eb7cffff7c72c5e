import Mathlib.Data.List.Forall2

/-!
# Computations that a condition decides

A computation that may fail is described by the condition under which it gives a result, and by what then holds
of the result (`Decides`). Such descriptions are put together along a sequence (`Decides.bind`) and along a list
(`Decides.mapM`).
-/

namespace NetPack

variable {ε α β : Type} {P P' : Prop} {Q : α → Prop} {Q' : β → Prop}

/-- A computation gives a result exactly if a condition holds, and the result is as it should be. -/
structure Decides (r : Except ε α) (P : Prop) (Q : α → Prop) : Prop where
  sound : ∀ a, r = .ok a → P ∧ Q a
  complete : P → ∃ a, r = .ok a

theorem Decides.of_ok {r : Except ε α} {a : α} (hr : r = .ok a) (hp : P) (hq : Q a) : Decides r P Q where
  sound b hb := by
    cases hr.symm.trans hb
    exact ⟨hp, hq⟩
  complete _ := ⟨a, hr⟩

theorem Decides.of_error {r : Except ε α} {e : ε} (hr : r = .error e) (hp : ¬P) : Decides r P Q where
  sound _ hb := nomatch hr.symm.trans hb
  complete h := absurd h hp

theorem Decides.congr {r : Except ε α} {R : α → Prop} (h : Decides r P Q) (hP : P ↔ P')
    (hR : ∀ a, P → Q a → R a) : Decides r P' R where
  sound a ha := ⟨hP.mp (h.sound a ha).1, hR a (h.sound a ha).1 (h.sound a ha).2⟩
  complete hp := h.complete (hP.mpr hp)

theorem Decides.bind {r : Except ε α} {f : α → Except ε β} (hr : Decides r P Q)
    (hf : ∀ a, P → Q a → Decides (f a) P' Q') : Decides (r >>= f) (P ∧ P') Q' where
  sound b hb := by
    cases r with
    | error e => cases hb
    | ok a =>
      obtain ⟨hp, hq⟩ := hr.sound a rfl
      obtain ⟨hp', hq'⟩ := (hf a hp hq).sound b hb
      exact ⟨⟨hp, hp'⟩, hq'⟩
  complete := by
    rintro ⟨hp, hp'⟩
    obtain ⟨a, ha⟩ := hr.complete hp
    obtain ⟨b, hb⟩ := (hf a hp (hr.sound a ha).2).complete hp'
    exact ⟨b, by rw [ha]; exact hb⟩

theorem Decides.map {r : Except ε α} {f : α → β} (h : Decides r P Q) (hf : ∀ a, Q a → Q' (f a)) :
    Decides (r.map f) P Q' where
  sound b hb := by
    cases r with
    | error e => cases hb
    | ok a =>
      cases hb
      exact ⟨(h.sound a rfl).1, hf a (h.sound a rfl).2⟩
  complete hp := by
    obtain ⟨a, ha⟩ := h.complete hp
    exact ⟨f a, by rw [ha]; rfl⟩

/-- A list is computed element by element. -/
theorem Decides.mapM {f : α → Except ε β} {C : α → Prop} {R : α → β → Prop}
    (hf : ∀ a, Decides (f a) (C a) (R a)) (l : List α) :
    Decides (l.mapM f) (∀ a ∈ l, C a) fun bs => List.Forall₂ R l bs := by
  induction l with
  | nil => exact .of_ok rfl (fun a ha => nomatch ha) .nil
  | cons a l ih =>
    rw [List.mapM_cons]
    refine ((hf a).bind fun b _ hb => ih.bind fun bs _ hbs => .of_ok rfl trivial (.cons hb hbs)).congr
      ?_ fun _ _ h => h
    rw [List.forall_mem_cons, and_true]

end NetPack
