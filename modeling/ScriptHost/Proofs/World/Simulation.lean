import ScriptHost.Proofs.World.Computation

/-!
# Computations side by side

Two computations are run on two worlds, one beside the other. `World.Simulates` says that from
worlds in a relation they end with results that agree, and in worlds in the relation again. It is
proved of computations part by part, with `Simulates.bind` for putting two parts together.
-/

namespace ScriptHost.World

variable {α β γ δ : Type} {R : World → World → Prop} {P : α → β → Prop} {Q : γ → δ → Prop}

/-- Two results agree if they are values in a relation, or the same error. -/
inductive Agree (P : α → β → Prop) : Except Error α → Except Error β → Prop
  | ok {a : α} {b : β} (h : P a b) : Agree P (.ok a) (.ok b)
  | error (e : Error) : Agree P (.error e) (.error e)

/-- Results that agree with equal values are equal. -/
theorem Agree.eq {r₁ r₂ : Except Error α} (h : Agree Eq r₁ r₂) : r₁ = r₂ := by
  cases h with
  | ok h => rw [h]
  | error e => rfl

theorem agree_refl (r : Except Error α) : Agree Eq r r := by
  cases r with
  | error e => exact .error e
  | ok a => exact .ok rfl

/-- A result agrees with what a function makes of its value. -/
theorem agree_map {r : Except Error α} {f : α → β} (h : ∀ a, r = .ok a → P a (f a)) :
    Agree P r (r.map f) := by
  cases r with
  | error e => exact .error e
  | ok a => exact .ok (h a rfl)

/-- A function may be applied to the value of the first result. -/
theorem Agree.map_left {r : Except Error γ} {r' : Except Error β} {f : γ → α}
    (h : Agree (fun c b => P (f c) b) r r') : Agree P (r.map f) r' := by
  cases h with
  | ok h => exact .ok h
  | error e => exact .error e

/-- From worlds in a relation, both computations end with results that agree and in worlds in the
relation. -/
def Simulates (R : World → World → Prop) (P : α → β → Prop) (x : WorldM α) (y : WorldM β) : Prop :=
  ∀ w v, R w v → Agree P (x.run.run w).1 (y.run.run v).1 ∧ R (x.run.run w).2 (y.run.run v).2

/-- Computations that go on from simulated parts with simulated rests are simulated. -/
theorem Simulates.bind {x : WorldM α} {y : WorldM β} {f : α → WorldM γ} {g : β → WorldM δ}
    (hxy : Simulates R P x y) (hfg : ∀ a b, P a b → Simulates R Q (f a) (g b)) :
    Simulates R Q (x >>= f) (y >>= g) := by
  intro w v hwv
  obtain ⟨hagree, hafter⟩ := hxy w v hwv
  rw [run_bind, run_bind]
  rcases hx : x.run.run w with ⟨r, w'⟩
  rcases hy : y.run.run v with ⟨r', v'⟩
  rw [hx, hy] at hagree hafter
  cases hagree with
  | ok hab => exact hfg _ _ hab _ _ hafter
  | error e => exact ⟨.error e, hafter⟩

theorem simulates_pure {a : α} {b : β} (h : P a b) : Simulates R P (pure a) (pure b) :=
  fun _ _ hwv => ⟨.ok h, hwv⟩

theorem simulates_ofExcept {r : Except Error α} {r' : Except Error β} (h : Agree P r r') :
    Simulates R P (MonadExcept.ofExcept r) (MonadExcept.ofExcept r') := by
  intro w v hwv
  rw [run_ofExcept, run_ofExcept]
  exact ⟨h, hwv⟩

/-- Writing the log is simulated if the relation does not see the log. -/
theorem simulates_logged (hlog : ∀ w v l m, R w v → R { w with log := l } { v with log := m })
    (request other : Request) : Simulates R Eq (logged request) (logged other) :=
  fun _ _ hwv => ⟨.ok rfl, hlog _ _ _ _ hwv⟩

/-- Counting is simulated if the relation does not see the metrics. -/
theorem Simulates.recorded
    (hmetrics : ∀ w v m n, R w v → R { w with metrics := m } { v with metrics := n })
    {x : WorldM α} {y : WorldM β} (hxy : Simulates R P x y) (engine other : String) :
    Simulates R P (World.recorded engine x) (World.recorded other y) := by
  intro w v hwv
  obtain ⟨m, hx⟩ := run_recorded engine x w
  obtain ⟨n, hy⟩ := run_recorded other y v
  obtain ⟨hagree, hafter⟩ := hxy w v hwv
  rw [hx, hy]
  exact ⟨hagree, hmetrics _ _ m n hafter⟩

end ScriptHost.World
