import Mathlib.Logic.Relation
import Stomp.Network.Environment

/-!
# What operations preserve

A property of subject and environment is **preserved** by an operation if it holds after the
operation whenever it held before, however the operation ends. That an operation preserves a
property follows from its steps:

* `preserves_bind` — an operation after another;
* `preserves_change`, `preserves_changeEnvironment` — the two ways in which anything changes;
* `preserves_attempt` — an operation whose failure is not passed on.

An operation **follows** a relation if whatever it does is a chain of steps of the relation. What a
subject can undergo is then said once, by the relation, and a property that its steps keep is
preserved by every operation that follows it (`Follows.preserves`). Where it matters how an
operation ended, one that succeeded is taken apart into its parts, all of which succeeded
(`on_bind_eq_ok`).
-/

namespace Stomp.Operation

variable {σ α β : Type} {P : σ → Environment → Prop}

/-- An operation after another succeeds if both do. -/
theorem on_bind_eq_ok {op : Operation σ α} {next : α → Operation σ β} {s s' : σ}
    {env env' : Environment} {b : β} :
    (op >>= next).on s env = (.ok b, s', env') ↔
      ∃ a s₁ env₁, op.on s env = (.ok a, s₁, env₁) ∧
        (next a).on s₁ env₁ = (.ok b, s', env') := by
  rw [on_bind]
  rcases op.on s env with ⟨e | a, s₁, env₁⟩
  · -- the first operation failed, so the whole failed and there is no success to take apart
    constructor
    · intro h
      cases h
    · rintro ⟨a, s₂, env₂, h, -⟩
      cases h
  · constructor
    · exact fun h => ⟨a, s₁, env₁, rfl, h⟩
    · rintro ⟨a', s₂, env₂, h, hnext⟩
      cases h
      exact hnext

theorem on_ofExcept_eq_ok {outcome : Except Error α} {s s' : σ} {env env' : Environment} {a : α} :
    (ofExcept outcome).on s env = (.ok a, s', env') ↔ outcome = .ok a ∧ s = s' ∧ env = env' := by
  rw [on_ofExcept, Prod.mk.injEq, Prod.mk.injEq]

/-- What an operation gives can be told from a value that is made of it, if different ones are made
of different ones. -/
theorem on_map_eq_iff {f : α → β} (hf : Function.Injective f) {op : Operation σ α} {s s' : σ}
    {env env' : Environment} {outcome : Except Error α} :
    (op >>= fun a => pure (f a)).on s env = (outcome.map f, s', env') ↔
      op.on s env = (outcome, s', env') := by
  rw [on_bind]
  rcases op.on s env with ⟨e | a, s₁, env₁⟩ <;> cases outcome <;> simp [Except.map, hf.eq_iff]

/-! ### Properties -/

/-- **An operation preserves a property** if it holds afterwards whenever it held before. -/
def Preserves (P : σ → Environment → Prop) (op : Operation σ α) : Prop :=
  ∀ s env, P s env → P (op.on s env).2.1 (op.on s env).2.2

theorem preserves_pure (a : α) : Preserves P (pure a) := fun _ _ h => h

theorem preserves_throw (e : Error) : Preserves P (throw e : Operation σ α) := fun _ _ h => h

theorem preserves_ofExcept (outcome : Except Error α) : Preserves P (ofExcept outcome) := by
  intro s env h
  rw [on_ofExcept]
  exact h

theorem preserves_subject : Preserves P (subject : Operation σ σ) := fun _ _ h => h

theorem preserves_change {f : σ → σ} (h : ∀ s env, P s env → P (f s) env) :
    Preserves P (change f) := h

theorem preserves_changeEnvironment {f : Environment → Environment}
    (h : ∀ s env, P s env → P s (f env)) : Preserves P (changeEnvironment f : Operation σ Unit) := h

theorem preserves_bind {op : Operation σ α} {next : α → Operation σ β} (hop : Preserves P op)
    (hnext : ∀ a, Preserves P (next a)) : Preserves P (op >>= next) := by
  intro s env h
  have hafter := hop s env h
  rw [on_bind]
  rcases hon : op.on s env with ⟨e | a, s', env'⟩
  · -- the failure is passed on, and nothing is done after it
    rw [hon] at hafter
    exact hafter
  · rw [hon] at hafter
    exact hnext a s' env' hafter

theorem preserves_ite {c : Prop} [Decidable c] {op other : Operation σ α} (hop : Preserves P op)
    (hother : Preserves P other) : Preserves P (if c then op else other) := by
  split
  · exact hop
  · exact hother

theorem preserves_attempt {op : Operation σ α} (hop : Preserves P op) :
    Preserves P (attempt op) := hop

/-! ### Chains of steps -/

/-- Every step of a relation keeps a property. -/
def Keeps (R : σ × Environment → σ × Environment → Prop) (P : σ → Environment → Prop) : Prop :=
  ∀ ⦃s env s' env'⦄, R (s, env) (s', env') → P s env → P s' env'

/-- **An operation follows a relation** if whatever it does is a chain of its steps. -/
def Follows (R : σ × Environment → σ × Environment → Prop) (op : Operation σ α) : Prop :=
  ∀ s env, Relation.ReflTransGen R (s, env) (op.on s env).2

section Follows

variable {R R' : σ × Environment → σ × Environment → Prop} {op : Operation σ α}

/-- What every step keeps is preserved. -/
theorem Follows.preserves (h : Follows R op) (hkeeps : Keeps R P) : Preserves P op := by
  intro s env hP
  -- the property is carried along the chain, step by step
  have hchain : ∀ x, Relation.ReflTransGen R (s, env) x → P x.1 x.2 := by
    intro x hx
    induction hx with
    | refl => exact hP
    | tail _ hstep ih => exact hkeeps hstep ih
  exact hchain _ (h s env)

theorem Follows.mono (h : Follows R op) (hle : ∀ x y, R x y → R' x y) : Follows R' op :=
  fun s env => Relation.ReflTransGen.mono hle _ _ (h s env)

/-- An operation that does one step at most. -/
theorem follows_of_step (h : ∀ s env, (op.on s env).2 = (s, env) ∨ R (s, env) (op.on s env).2) :
    Follows R op := by
  intro s env
  rcases h s env with hsame | hstep
  · rw [hsame]
  · exact .single hstep

theorem follows_of_unchanged (h : ∀ s env, (op.on s env).2 = (s, env)) : Follows R op :=
  follows_of_step fun s env => .inl (h s env)

theorem follows_pure (a : α) : Follows R (pure a) := fun _ _ => .refl

theorem follows_throw (e : Error) : Follows R (throw e : Operation σ α) := fun _ _ => .refl

theorem follows_ofExcept (outcome : Except Error α) : Follows R (ofExcept outcome) :=
  follows_of_unchanged fun s env => by rw [on_ofExcept]

theorem follows_subject : Follows R (subject : Operation σ σ) := fun _ _ => .refl

/-- An operation after another: the chain of the one and then that of the other. -/
theorem follows_bind {next : α → Operation σ β} (hop : Follows R op)
    (hnext : ∀ a, Follows R (next a)) : Follows R (op >>= next) := by
  intro s env
  have hfirst := hop s env
  rw [on_bind]
  rcases hon : op.on s env with ⟨e | a, s', env'⟩
  · -- a failure ends the chain where the first operation left it
    rwa [hon] at hfirst
  · rw [hon] at hfirst
    exact hfirst.trans (hnext a s' env')

theorem follows_ite {c : Prop} [Decidable c] {other : Operation σ α} (hop : Follows R op)
    (hother : Follows R other) : Follows R (if c then op else other) := by
  split
  · exact hop
  · exact hother

theorem follows_attempt (hop : Follows R op) : Follows R (attempt op) := hop

end Follows

end Stomp.Operation
