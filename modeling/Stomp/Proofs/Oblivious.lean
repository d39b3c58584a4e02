import Stomp.Proofs.History

/-!
# Operations that do not look back

What was done to the network and told to the log is kept for the outside world only. An operation is
**oblivious** if it goes the same way whatever was kept before it began: put the records of another
environment before those that it begins with (`Environment.behind`), and nothing changes but that
they stand there afterwards. The clock and the number of sockets are not records, and an oblivious
operation may depend on them.

* `oblivious_bind` — an operation after another;
* `oblivious_clock` — an operation that looks at the clock;
* `history_of_oblivious`, `after_of_oblivious` — things asked for one after another give the same
  history and leave the same subject in any two environments with one clock and as many sockets.
-/

namespace Stomp

/-- An environment with the records of another before its own. -/
def Environment.behind (env past : Environment) : Environment :=
  { env with acts := past.acts ++ env.acts, notices := past.notices ++ env.notices }

/-- An environment without its records. -/
def Environment.blank (env : Environment) : Environment := { env with acts := [], notices := [] }

/-- A deed with the records of another before its own. -/
def Deed.behind {α β : Type} (d earlier : Deed α β) : Deed α β :=
  { d with acts := earlier.acts ++ d.acts, notices := earlier.notices ++ d.notices }

/-- The clock is the same and so is the number of sockets. -/
structure Environment.Alike (env env' : Environment) : Prop where
  clock : env.clock = env'.clock
  sockets : env.sockets = env'.sockets

namespace Environment

@[simp] theorem acts_behind (env past : Environment) :
    (env.behind past).acts = past.acts ++ env.acts := rfl

@[simp] theorem notices_behind (env past : Environment) :
    (env.behind past).notices = past.notices ++ env.notices := rfl

theorem blank_behind (env : Environment) : env.blank.behind env = env := by
  simp [behind, blank]

theorem Alike.blank_eq {env env' : Environment} (h : env.Alike env') : env.blank = env'.blank := by
  simp [blank, h.clock, h.sockets]

theorem Alike.trans {env env' env'' : Environment} (h : env.Alike env') (h' : env'.Alike env'') :
    env.Alike env'' := ⟨h.clock.trans h'.clock, h.sockets.trans h'.sockets⟩

end Environment

namespace Operation

variable {σ α β : Type}

/-- **An operation does not look back** if the records of the environment only grow under it, in a
way that does not depend on them. -/
def Oblivious (op : Operation σ α) : Prop :=
  ∀ s env past,
    op.on s (env.behind past) = ((op.on s env).1, (op.on s env).2.1, (op.on s env).2.2.behind past)

theorem oblivious_pure (a : α) : Oblivious (pure a : Operation σ α) := fun _ _ _ => rfl

theorem oblivious_throw (e : Error) : Oblivious (throw e : Operation σ α) := fun _ _ _ => rfl

theorem oblivious_ofExcept (outcome : Except Error α) :
    Oblivious (ofExcept outcome : Operation σ α) := by
  intro s env past
  rw [on_ofExcept, on_ofExcept]

theorem oblivious_subject : Oblivious (subject : Operation σ σ) := fun _ _ _ => rfl

theorem oblivious_change (f : σ → σ) : Oblivious (change f) := fun _ _ _ => rfl

theorem oblivious_notify (notice : Notice) : Oblivious (notify notice : Operation σ Unit) := by
  intro s env past
  simp [Environment.behind]

theorem oblivious_act (socket : Option Nat) (a : Network.Act) :
    Oblivious (act socket a : Operation σ Unit) := by
  intro s env past
  simp [Environment.behind]

theorem oblivious_elapse (seconds : Rat) : Oblivious (elapse seconds : Operation σ Unit) :=
  fun _ _ _ => rfl

theorem oblivious_newSocket (peer : Network.Peer) :
    Oblivious (newSocket peer : Operation σ Network.Socket) := fun _ _ _ => rfl

/-- An operation after another: the second one begins with the records that the first one left. -/
theorem oblivious_bind {op : Operation σ α} {next : α → Operation σ β} (hop : Oblivious op)
    (hnext : ∀ a, Oblivious (next a)) : Oblivious (op >>= next) := by
  intro s env past
  rw [on_bind, on_bind, hop s env past]
  rcases op.on s env with ⟨e | a, s', env'⟩
  · rfl
  · -- the records that the first one added stand between those from before and those of the next
    exact hnext a s' env' past

/-- Of the environment, an operation may look at the clock. -/
theorem oblivious_clock {next : Rat → Operation σ β} (hnext : ∀ now, Oblivious (next now)) :
    Oblivious (environment >>= fun env => next env.clock) := by
  intro s env past
  rw [on_bind, on_bind]
  exact hnext env.clock s env past

theorem oblivious_ite {c : Prop} [Decidable c] {op other : Operation σ α} (hop : Oblivious op)
    (hother : Oblivious other) : Oblivious (if c then op else other) := by
  split
  · exact hop
  · exact hother

theorem oblivious_attempt {op : Operation σ α} (hop : Oblivious op) : Oblivious (attempt op) := by
  intro s env past
  rw [on_attempt, on_attempt, hop s env past]

/-! ### Histories -/

section History

variable {operation : α → Operation σ β} {env env' : Environment}

/-- **What comes of an oblivious operation** does not depend on the records. -/
theorem deed_behind {asked : α} (h : Oblivious (operation asked)) (s : σ) (env past : Environment) :
    deed operation asked s (env.behind past) = deed operation asked s env := by
  rw [deed, deed, h s env past]
  simp [List.drop_append]

/-- Nothing that was kept is lost: the records are those from before and those of the deed. -/
theorem records_of_oblivious {asked : α} (h : Oblivious (operation asked)) (s : σ)
    (env : Environment) :
    ((operation asked).on s env).2.2.acts = env.acts ++ (deed operation asked s env).acts ∧
      ((operation asked).on s env).2.2.notices =
        env.notices ++ (deed operation asked s env).notices := by
  -- the environment is itself without records, behind its own records
  have hblank := h s env.blank env
  rw [env.blank_behind] at hblank
  rw [deed, hblank]
  simp

theorem after_behind (h : ∀ asked, Oblivious (operation asked)) (later : List α) (s : σ)
    (env past : Environment) :
    after operation later s (env.behind past) =
      ((after operation later s env).1, (after operation later s env).2.behind past) := by
  induction later generalizing s env with
  | nil => rfl
  | cons asked later ih =>
    -- the records are put in front of what the first deed leaves, and the rest is another such run
    rw [after, after, h asked s env past]
    exact ih _ _

theorem history_behind (h : ∀ asked, Oblivious (operation asked)) (later : List α) (s : σ)
    (env past : Environment) :
    history operation later s (env.behind past) = history operation later s env := by
  induction later generalizing s env with
  | nil => rfl
  | cons asked later ih =>
    rw [history_cons, history_cons, deed_behind (h asked), h asked s env past]
    exact congrArg _ (ih _ _)

/-- Environments that are alike give the same history. -/
theorem history_of_oblivious (h : ∀ asked, Oblivious (operation asked)) (halike : env.Alike env')
    (later : List α) (s : σ) :
    history operation later s env = history operation later s env' := by
  -- both are the one blank environment, with records put in front that do not matter
  rw [← env.blank_behind, ← env'.blank_behind, history_behind h, history_behind h,
    halike.blank_eq]

/-- Environments that are alike leave the same subject. -/
theorem after_of_oblivious (h : ∀ asked, Oblivious (operation asked)) (halike : env.Alike env')
    (later : List α) (s : σ) :
    (after operation later s env).1 = (after operation later s env').1 := by
  rw [← env.blank_behind, ← env'.blank_behind, after_behind h, after_behind h, halike.blank_eq]

end History

end Operation

end Stomp
