/-!
# Computations with a log

A computation records entries and then gives a value or fails; what it recorded before it failed
stays recorded. Running two computations one after the other appends their logs, so an entry once
made is never changed or moved (`log_bind_of_ok`, `log_bind_of_error`).
-/

namespace NetPack

/-- The outcome of a computation that records entries of `ω` and can fail with an `ε`. -/
structure Logged (ε ω α : Type) where
  log : List ω
  result : Except ε α

namespace Logged

variable {ε ε' ω ω' α β : Type}

/-- Runs the second computation on the value of the first, if there is one. -/
def andThen (x : Logged ε ω α) (f : α → Logged ε ω β) : Logged ε ω β :=
  match x.result with
  | .ok a => ⟨x.log ++ (f a).log, (f a).result⟩
  | .error e => ⟨x.log, .error e⟩

instance : Monad (Logged ε ω) where
  pure a := ⟨[], .ok a⟩
  bind := andThen

/-- Records one entry. -/
def tell (w : ω) : Logged ε ω Unit :=
  ⟨[w], .ok ()⟩

/-- Fails without recording anything. -/
def fail (e : ε) : Logged ε ω α :=
  ⟨[], .error e⟩

/-- A value, or a failure, without a record. -/
def ofExcept (r : Except ε α) : Logged ε ω α :=
  ⟨[], r⟩

/-- A value that must be there. -/
def ofOption (e : ε) : Option α → Logged ε ω α
  | some a => pure a
  | none => fail e

/-- Keeps the log and changes the failure. -/
def mapError (f : ε → ε') (x : Logged ε ω α) : Logged ε' ω α :=
  ⟨x.log, x.result.mapError f⟩

/-- Keeps the result and changes the entries. -/
def mapLog (f : ω → ω') (x : Logged ε ω α) : Logged ε ω' α :=
  ⟨x.log.map f, x.result⟩

/-- Keeps the result and changes or drops the entries. -/
def filterMapLog (f : ω → Option ω') (x : Logged ε ω α) : Logged ε ω' α :=
  ⟨x.log.filterMap f, x.result⟩

/-- Records entries in order. -/
def tellAll (ws : List ω) : Logged ε ω Unit :=
  ⟨ws, .ok ()⟩

/-- The result together with the entries recorded on the way to it. -/
def withLog (x : Logged ε ω α) : Logged ε ω (α × List ω) :=
  ⟨x.log, x.result.map fun a => (a, x.log)⟩

@[ext] theorem ext {x y : Logged ε ω α} (hl : x.log = y.log) (hr : x.result = y.result) : x = y := by
  cases x; cases y; simp_all

theorem pure_eq (a : α) : (pure a : Logged ε ω α) = ⟨[], .ok a⟩ := rfl

@[simp] theorem log_pure (a : α) : (pure a : Logged ε ω α).log = [] := rfl

@[simp] theorem result_pure (a : α) : (pure a : Logged ε ω α).result = .ok a := rfl

theorem bind_of_ok {x : Logged ε ω α} {a : α} (f : α → Logged ε ω β) (h : x.result = .ok a) :
    x >>= f = ⟨x.log ++ (f a).log, (f a).result⟩ := by
  simp [bind, andThen, h]

theorem bind_of_error {x : Logged ε ω α} {e : ε} (f : α → Logged ε ω β) (h : x.result = .error e) :
    x >>= f = ⟨x.log, .error e⟩ := by
  simp [bind, andThen, h]

theorem log_bind_of_ok {x : Logged ε ω α} {a : α} (f : α → Logged ε ω β) (h : x.result = .ok a) :
    (x >>= f).log = x.log ++ (f a).log := by
  rw [bind_of_ok f h]

theorem log_bind_of_error {x : Logged ε ω α} {e : ε} (f : α → Logged ε ω β)
    (h : x.result = .error e) : (x >>= f).log = x.log := by
  rw [bind_of_error f h]

theorem result_bind_eq_ok_iff {x : Logged ε ω α} {f : α → Logged ε ω β} {b : β} :
    (x >>= f).result = .ok b ↔ ∃ a, x.result = .ok a ∧ (f a).result = .ok b := by
  cases h : x.result with
  | ok a => simp [bind_of_ok f h]
  | error e => simp [bind_of_error f h]

/-- A function on the value changes nothing else. -/
theorem bind_pure_eq (x : Logged ε ω α) (f : α → β) :
    (x >>= fun a => pure (f a)) = ⟨x.log, x.result.map f⟩ := by
  cases h : x.result with
  | ok a => simp [bind_of_ok _ h, Except.map]
  | error e => simp [bind_of_error _ h, Except.map]

theorem eq_of_result {x : Logged ε ω α} {r : Except ε α} (h : x.result = r) : x = ⟨x.log, r⟩ :=
  ext rfl h

/-- A sequence gives a value if both parts do, and its log is made of theirs. -/
theorem bind_eq_ok_iff {x : Logged ε ω α} {f : α → Logged ε ω β} {l : List ω} {b : β} :
    x >>= f = ⟨l, .ok b⟩ ↔ ∃ a l₁ l₂, x = ⟨l₁, .ok a⟩ ∧ f a = ⟨l₂, .ok b⟩ ∧ l = l₁ ++ l₂ := by
  constructor
  · intro h
    obtain ⟨a, ha, hb⟩ := result_bind_eq_ok_iff.mp (congrArg result h)
    rw [bind_of_ok f ha] at h
    exact ⟨a, x.log, (f a).log, eq_of_result ha, eq_of_result hb, (congrArg log h).symm⟩
  · rintro ⟨a, l₁, l₂, rfl, hb, rfl⟩
    rw [bind_of_ok f rfl, hb]

theorem ofExcept_eq_ok_iff {r : Except ε α} {l : List ω} {a : α} :
    ofExcept r = ⟨l, .ok a⟩ ↔ r = .ok a ∧ l = [] := by
  rw [ofExcept, mk.injEq, and_comm, eq_comm (a := l)]

/-- A value that is computed without a record leaves the log to what follows it. -/
theorem ofExcept_bind_eq_ok_iff {r : Except ε α} {f : α → Logged ε ω β} {l : List ω} {b : β} :
    ofExcept r >>= f = ⟨l, .ok b⟩ ↔ ∃ a, r = .ok a ∧ f a = ⟨l, .ok b⟩ := by
  rw [bind_eq_ok_iff]
  constructor
  · rintro ⟨a, l₁, l₂, ha, hb, rfl⟩
    obtain ⟨hr, rfl⟩ := ofExcept_eq_ok_iff.mp ha
    exact ⟨a, hr, hb⟩
  · rintro ⟨a, rfl, hb⟩
    exact ⟨a, [], l, rfl, hb, rfl⟩

theorem ofOption_eq_ok_iff {e : ε} {a? : Option α} {l : List ω} {a : α} :
    ofOption e a? = ⟨l, .ok a⟩ ↔ a? = some a ∧ l = [] := by
  cases a? with
  | none => simp [ofOption, fail]
  | some b =>
    rw [ofOption, show (pure b : Logged ε ω α) = ofExcept (.ok b) from rfl, ofExcept_eq_ok_iff,
      Except.ok.injEq, Option.some.injEq]

theorem id_map (x : Logged ε ω α) : id <$> x = x := by
  obtain ⟨l, r⟩ := x
  cases r <;> simp [Functor.map, andThen]

theorem pure_bind (a : α) (f : α → Logged ε ω β) : pure a >>= f = f a := by
  simp [bind, pure, andThen]

theorem bind_assoc {γ : Type} (x : Logged ε ω α) (f : α → Logged ε ω β) (g : β → Logged ε ω γ) :
    x >>= f >>= g = x >>= fun a => f a >>= g := by
  obtain ⟨l, r⟩ := x
  cases r with
  | error e => rfl
  | ok a =>
    simp only [bind, andThen]
    cases (f a).result <;> simp

instance : LawfulMonad (Logged ε ω) :=
  LawfulMonad.mk' (Logged ε ω) id_map pure_bind bind_assoc

end Logged

end NetPack
