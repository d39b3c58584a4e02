import Stomp.Proofs.History

/-!
# Operations that keep to their part

Two kinds of operations may work on one subject without disturbing each other. A **division** says
what one kind sees of subject and environment, its `part`, and what the other kind sees, the `rest`;
what neither sees is not spoken of. An operation **keeps to the part** (`KeepsTo`) if what it gives
and what becomes of the part depend on the part alone, and if it leaves the rest as it was.

* `keepsTo_bind` and the lemmas beside it — that an operation keeps to the part follows from its
  steps; for an operation that goes on and on, `KeepsAt.bind` looks at one state only;
* `Interleaving` — two lists mixed, each in its own order;
* `results_of_interleaving` — where what one list asks for keeps to the part, and what the other one
  asks for keeps to the rest, each list does in the mixture what it does by itself.
-/

namespace Stomp

/-- **Two lists mixed**: the elements of both, each in its own order. -/
inductive Interleaving {α : Type} : List α → List α → List α → Prop
  | nil : Interleaving [] [] []
  | left {a : α} {xs ys zs : List α} (h : Interleaving xs ys zs) :
    Interleaving (a :: xs) ys (a :: zs)
  | right {a : α} {xs ys zs : List α} (h : Interleaving xs ys zs) :
    Interleaving xs (a :: ys) (a :: zs)

namespace Interleaving

variable {α : Type} {xs ys zs : List α}

theorem symm (h : Interleaving xs ys zs) : Interleaving ys xs zs := by
  induction h with
  | nil => exact .nil
  | left _ ih => exact .right ih
  | right _ ih => exact .left ih

/-- Where the two lists can be told apart by their elements, each of them is found again in the
mixture. -/
theorem filter_eq {p : α → Bool} (h : Interleaving xs ys zs) (hxs : ∀ a ∈ xs, p a = true)
    (hys : ∀ a ∈ ys, p a = false) : zs.filter p = xs := by
  -- the mixture says of each element which of the two lists it is from
  induction h with
  | nil => rfl
  | left _ ih =>
    rw [List.filter_cons_of_pos (hxs _ (List.mem_cons_self ..)),
      ih (fun a ha => hxs a (List.mem_cons_of_mem _ ha)) hys]
  | right _ ih =>
    have hfirst := hys _ (List.mem_cons_self ..)
    rw [List.filter_cons_of_neg (by rw [hfirst]; exact Bool.false_ne_true),
      ih hxs fun a ha => hys a (List.mem_cons_of_mem _ ha)]

end Interleaving

namespace Operation

variable {σ α β γ δ : Type}

theorem ext {op op' : Operation σ α} (h : ∀ s env, op.on s env = op'.on s env) : op = op' :=
  funext fun x => h x.1 x.2

/-- **A division** of subject and environment, in states of which something is known. -/
structure Division (σ γ δ : Type) where
  known : σ → Environment → Prop
  part : σ × Environment → γ
  rest : σ × Environment → δ

/-- The same division, seen from the other side. -/
def Division.swap (d : Division σ γ δ) : Division σ δ γ := ⟨d.known, d.rest, d.part⟩

/-- **An operation keeps to the part, begun in a state.** What was known is known afterwards; the
rest is as it was; and begun in any other state with the same part, the operation gives the same and
leaves the same part. -/
structure KeepsAt (d : Division σ γ δ) (op : Operation σ α) (s : σ) (env : Environment) : Prop where
  preserved : d.known (op.on s env).2.1 (op.on s env).2.2
  apart : d.rest (op.on s env).2 = d.rest (s, env)
  same : ∀ s' env', d.known s' env' → d.part (s, env) = d.part (s', env') →
    (op.on s env).1 = (op.on s' env').1 ∧ d.part (op.on s env).2 = d.part (op.on s' env').2

/-- **An operation keeps to the part** if it does so in every state of which something is known. -/
def KeepsTo (d : Division σ γ δ) (op : Operation σ α) : Prop :=
  ∀ s env, d.known s env → KeepsAt d op s env

section KeepsTo

variable {d : Division σ γ δ} {op : Operation σ α}

/-- An operation keeps to the part if what it gives and what it leaves of the part are told by a
function of the part. -/
theorem keepsTo_of_eq {f : γ → Except Error α × γ}
    (hknown : ∀ s env, d.known s env → d.known (op.on s env).2.1 (op.on s env).2.2)
    (hrest : ∀ s env, d.rest (op.on s env).2 = d.rest (s, env))
    (heq : ∀ s env, ((op.on s env).1, d.part (op.on s env).2) = f (d.part (s, env))) :
    KeepsTo d op := by
  refine fun s env h => ⟨hknown s env h, hrest s env, fun s' env' _ hpart => ?_⟩
  have hsame := (heq s env).trans ((congrArg f hpart).trans (heq s' env').symm)
  exact Prod.mk.inj hsame

/-- An operation that changes nothing keeps to the part if the part tells what it gives. -/
theorem keepsTo_of_unchanged (hunchanged : ∀ s env, (op.on s env).2 = (s, env))
    (hsame : ∀ s env s' env', d.part (s, env) = d.part (s', env') →
      (op.on s env).1 = (op.on s' env').1) : KeepsTo d op := by
  intro s env hknown
  refine ⟨?_, ?_, fun s' env' _ hpart => ⟨hsame s env s' env' hpart, ?_⟩⟩
  · rwa [hunchanged]
  · rw [hunchanged]
  · rwa [hunchanged, hunchanged]

theorem keepsTo_pure (a : α) : KeepsTo d (pure a : Operation σ α) :=
  keepsTo_of_unchanged (fun _ _ => rfl) fun _ _ _ _ _ => rfl

theorem keepsTo_throw (e : Error) : KeepsTo d (throw e : Operation σ α) :=
  keepsTo_of_unchanged (fun _ _ => rfl) fun _ _ _ _ _ => rfl

theorem keepsTo_ofExcept (outcome : Except Error α) :
    KeepsTo d (ofExcept outcome : Operation σ α) :=
  keepsTo_of_unchanged (fun s env => by rw [on_ofExcept]) fun s env s' env' _ => by
    rw [on_ofExcept, on_ofExcept]

/-- What changes the subject keeps to the part if the part tells what becomes of it and the rest
does not show the change. -/
theorem keepsTo_change {f : σ → σ} (hknown : ∀ s env, d.known s env → d.known (f s) env)
    (hrest : ∀ s env, d.rest (f s, env) = d.rest (s, env))
    (hpart : ∀ s env s' env', d.part (s, env) = d.part (s', env') →
      d.part (f s, env) = d.part (f s', env')) : KeepsTo d (change f) :=
  fun s env h => ⟨hknown s env h, hrest s env, fun s' env' _ heq => ⟨rfl, hpart s env s' env' heq⟩⟩

/-- Telling the log keeps to the part where the log is not seen. -/
theorem keepsTo_notify (notice : Notice)
    (hknown : ∀ s env notices, d.known s env → d.known s { env with notices })
    (hrest : ∀ s env notices, d.rest (s, { env with notices }) = d.rest (s, env))
    (hpart : ∀ s env notices, d.part (s, { env with notices }) = d.part (s, env)) :
    KeepsTo d (notify notice : Operation σ Unit) := by
  intro s env h
  refine ⟨hknown s env _ h, hrest s env _, fun s' env' _ heq => ⟨rfl, ?_⟩⟩
  simp only [on_notify, hpart, heq]

/-- An operation after another, begun in a state. The second one is looked at where the first one
leads to. -/
theorem KeepsAt.bind {next : α → Operation σ β} {s : σ} {env : Environment} (hop : KeepsTo d op)
    (hs : d.known s env)
    (hnext : ∀ a s₁ env₁, op.on s env = (.ok a, s₁, env₁) → d.known s₁ env₁ →
      KeepsAt d (next a) s₁ env₁) : KeepsAt d (op >>= next) s env := by
  obtain ⟨hknown, hapart, hsame⟩ := hop s env hs
  -- in another state with the same part, the first operation ends in the same way
  rcases hon : op.on s env with ⟨e | a, s₁, env₁⟩
  · have hbind : (op >>= next).on s env = (.error e, s₁, env₁) := by rw [on_bind, hon]
    rw [hon] at hknown hapart hsame
    refine ⟨?_, ?_, fun s' env' hs' hpart => ?_⟩
    · rwa [hbind]
    · rwa [hbind]
    · obtain ⟨houtcome, hleft⟩ := hsame s' env' hs' hpart
      rw [hbind, on_bind]
      rcases hon' : op.on s' env' with ⟨e' | a', s₁', env₁'⟩
      · rw [hon'] at houtcome hleft
        cases houtcome
        exact ⟨rfl, hleft⟩
      · rw [hon'] at houtcome
        cases houtcome
  · have hbind : (op >>= next).on s env = (next a).on s₁ env₁ := by rw [on_bind, hon]
    rw [hon] at hknown hapart hsame
    obtain ⟨hknown₁, hapart₁, hsame₁⟩ := hnext a s₁ env₁ hon hknown
    refine ⟨?_, ?_, fun s' env' hs' hpart => ?_⟩
    · rwa [hbind]
    · rw [hbind, hapart₁, hapart]
    · -- and then the second one begins in states with the same part
      obtain ⟨houtcome, hleft⟩ := hsame s' env' hs' hpart
      have hknown' := (hop s' env' hs').preserved
      rw [hbind, on_bind]
      rcases hon' : op.on s' env' with ⟨e' | a', s₁', env₁'⟩
      · rw [hon'] at houtcome
        cases houtcome
      · rw [hon'] at houtcome hleft hknown'
        cases houtcome
        exact hsame₁ s₁' env₁' hknown' hleft

theorem keepsTo_bind {next : α → Operation σ β} (hop : KeepsTo d op)
    (hnext : ∀ a, KeepsTo d (next a)) : KeepsTo d (op >>= next) :=
  fun _ _ hs => .bind hop hs fun a s₁ env₁ _ => hnext a s₁ env₁

/-- An operation that looks at the subject keeps to the part if it depends on what the part shows of
it. -/
theorem keepsTo_subject_bind {next : σ → Operation σ β} (hnext : ∀ s, KeepsTo d (next s))
    (hsame : ∀ s env s' env', d.part (s, env) = d.part (s', env') → next s = next s') :
    KeepsTo d (subject >>= next) := by
  intro s env hs
  obtain ⟨hknown, hapart, hlike⟩ := hnext s s env hs
  -- looking changes nothing, so all that matters is what comes next
  refine ⟨hknown, hapart, fun s' env' hs' hpart => ?_⟩
  rw [on_bind, on_bind]
  dsimp only [on_subject]
  rw [← hsame s env s' env' hpart]
  exact hlike s' env' hs' hpart

/-- Nor does it matter that a failure is not passed on. -/
theorem keepsTo_attempt (hop : KeepsTo d op) : KeepsTo d (attempt op) := by
  intro s env hs
  obtain ⟨hknown, hapart, hsame⟩ := hop s env hs
  refine ⟨hknown, hapart, fun s' env' hs' hpart => ?_⟩
  obtain ⟨houtcome, hleft⟩ := hsame s' env' hs' hpart
  rw [on_attempt, on_attempt, houtcome]
  exact ⟨rfl, hleft⟩

end KeepsTo

/-! ### Two lists mixed -/

section Mixed

variable (operation : α → Operation σ β)

/-- What came of each thing that was asked for. -/
def results (asked : List α) (s : σ) (env : Environment) : List (α × Except Error β) :=
  (history operation asked s env).map fun d => (d.asked, d.outcome)

theorem results_cons (asked : α) (later : List α) (s : σ) (env : Environment) :
    results operation (asked :: later) s env =
      (asked, ((operation asked).on s env).1) ::
        results operation later ((operation asked).on s env).2.1
          ((operation asked).on s env).2.2 := rfl

/-- There is a result for each thing that was asked for, in order. -/
theorem map_fst_results (asked : List α) (s : σ) (env : Environment) :
    (results operation asked s env).map Prod.fst = asked := by
  induction asked generalizing s env with
  | nil => rfl
  | cons a later ih => rw [results_cons, List.map_cons, ih]

theorem fst_mem_of_mem_results {asked : List α} {s : σ} {env : Environment}
    {result : α × Except Error β} (h : result ∈ results operation asked s env) :
    result.1 ∈ asked := by
  rw [← map_fst_results operation asked s env]
  exact List.mem_map_of_mem h

variable {operation} {d : Division σ γ δ} {xs ys zs : List α}

/-- **Each list does in the mixture what it does by itself.** The mixture is begun in a state with
the part of one state and the rest of another, and the two lists by themselves in these. -/
theorem results_of_interleaving (h : Interleaving xs ys zs)
    (hxs : ∀ a ∈ xs, KeepsTo d (operation a)) (hys : ∀ a ∈ ys, KeepsTo d.swap (operation a))
    {s s₁ s₂ : σ} {env env₁ env₂ : Environment} (hs : d.known s env) (hs₁ : d.known s₁ env₁)
    (hs₂ : d.known s₂ env₂) (hpart : d.part (s, env) = d.part (s₁, env₁))
    (hrest : d.rest (s, env) = d.rest (s₂, env₂)) :
    Interleaving (results operation xs s₁ env₁) (results operation ys s₂ env₂)
        (results operation zs s env) ∧
      d.known (after operation zs s env).1 (after operation zs s env).2 ∧
      d.part (after operation zs s env) = d.part (after operation xs s₁ env₁) ∧
      d.rest (after operation zs s env) = d.rest (after operation ys s₂ env₂) := by
  -- the three states go different ways; part and rest are what keeps them together
  induction h generalizing s s₁ s₂ env env₁ env₂ with
  | nil => exact ⟨.nil, hs, hpart, hrest⟩
  | @left a xs ys zs _ ih =>
    obtain ⟨ha, hlater⟩ := List.forall_mem_cons.mp hxs
    -- the first list goes on, by itself and in the mixture, and the other one sees nothing of it
    obtain ⟨hknown, hapart, hsame⟩ := ha s env hs
    obtain ⟨houtcome, hleft⟩ := hsame s₁ env₁ hs₁ hpart
    obtain ⟨hresults, hends⟩ :=
      ih hlater hys hknown (ha s₁ env₁ hs₁).preserved hs₂ hleft (hapart.trans hrest)
    rw [results_cons, results_cons, houtcome]
    exact ⟨.left hresults, hends⟩
  | @right a xs ys zs _ ih =>
    obtain ⟨ha, hlater⟩ := List.forall_mem_cons.mp hys
    -- the same with the sides exchanged
    obtain ⟨hknown, hapart, hsame⟩ := ha s env hs
    obtain ⟨houtcome, hleft⟩ := hsame s₂ env₂ hs₂ hrest
    obtain ⟨hresults, hends⟩ :=
      ih hxs hlater hknown hs₁ (ha s₂ env₂ hs₂).preserved (hapart.trans hpart) hleft
    rw [results_cons, results_cons, houtcome]
    exact ⟨.right hresults, hends⟩

end Mixed

end Operation

end Stomp
