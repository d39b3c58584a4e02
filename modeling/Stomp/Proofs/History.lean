import Mathlib.Data.List.Basic
import Stomp.Proofs.Operation

/-!
# Histories

A **history** is what came of things that were asked for one after another, the failed ones too. For
each of them it holds a **deed**: what was asked for, what came of it, and what was done to the
network and told to the log meanwhile. Histories grow at their end, so that what holds after every
history is proved for one more deed at a time (`after_concat`, `history_concat`).

`Since p q` says of a history that something of one kind happened in it, and nothing of another kind
after that.
-/

namespace Stomp

/-- What is known of something that was asked for. -/
structure Deed (α β : Type) where
  asked : α
  outcome : Except Error β
  /-- What was done to the network. -/
  acts : List Network.Entry
  /-- What was told to the log. -/
  notices : List Notice

/-- What was asked for was done. -/
def Deed.succeeded {α β : Type} (d : Deed α β) : Bool := d.outcome.isOk

namespace Operation

variable {σ α β : Type} (operation : α → Operation σ β)

/-- The deed that comes of asking for something. -/
def deed (asked : α) (s : σ) (env : Environment) : Deed α β where
  asked
  outcome := ((operation asked).on s env).1
  acts := ((operation asked).on s env).2.2.acts.drop env.acts.length
  notices := ((operation asked).on s env).2.2.notices.drop env.notices.length

/-- What is left of subject and environment after things were asked for one after another. -/
def after : List α → σ → Environment → σ × Environment
  | [], s, env => (s, env)
  | asked :: later, s, env =>
    after later ((operation asked).on s env).2.1 ((operation asked).on s env).2.2

/-- The deeds that come of asking for things one after another. -/
def history : List α → σ → Environment → List (Deed α β)
  | [], _, _ => []
  | asked :: later, s, env =>
    deed operation asked s env ::
      history later ((operation asked).on s env).2.1 ((operation asked).on s env).2.2

@[simp] theorem after_nil (s : σ) (env : Environment) : after operation [] s env = (s, env) := rfl

@[simp] theorem history_nil (s : σ) (env : Environment) : history operation [] s env = [] := rfl

theorem history_cons (asked : α) (later : List α) (s : σ) (env : Environment) :
    history operation (asked :: later) s env =
      deed operation asked s env ::
        history operation later ((operation asked).on s env).2.1
          ((operation asked).on s env).2.2 := rfl

theorem after_append (earlier later : List α) (s : σ) (env : Environment) :
    after operation (earlier ++ later) s env =
      after operation later (after operation earlier s env).1
        (after operation earlier s env).2 := by
  induction earlier generalizing s env with
  | nil => rfl
  | cons first earlier ih => exact ih _ _

theorem after_concat (earlier : List α) (asked : α) (s : σ) (env : Environment) :
    after operation (earlier ++ [asked]) s env =
      ((operation asked).on (after operation earlier s env).1
        (after operation earlier s env).2).2 :=
  after_append operation earlier [asked] s env

theorem history_concat (earlier : List α) (asked : α) (s : σ) (env : Environment) :
    history operation (earlier ++ [asked]) s env =
      history operation earlier s env ++
        [deed operation asked (after operation earlier s env).1
          (after operation earlier s env).2] := by
  induction earlier generalizing s env with
  | nil => rfl
  | cons first earlier ih => exact congrArg (deed operation first s env :: ·) (ih _ _)

/-- **What everything that was asked for preserves** holds after every history. -/
theorem after_preserves {P : σ → Environment → Prop} {asked : List α}
    (hstep : ∀ a ∈ asked, Preserves P (operation a)) {s : σ} {env : Environment} (h : P s env) :
    P (after operation asked s env).1 (after operation asked s env).2 := by
  induction asked generalizing s env with
  | nil => exact h
  -- the property goes with subject and environment: the rest begins with what the first deed left
  | cons a later ih =>
    exact ih (fun b hb => hstep b (List.mem_cons_of_mem _ hb))
      (hstep a (List.mem_cons_self ..) s env h)

end Operation

/-! ### One thing since another -/

/-- Something of the kind `p` happened, and nothing of the kind `q` after it. -/
def Since {α : Type} (p q : α → Bool) (past : List α) : Prop :=
  ∃ before x later, past = before ++ x :: later ∧ p x ∧ ∀ y ∈ later, ¬ q y

@[simp] theorem since_nil {α : Type} (p q : α → Bool) : ¬ Since p q [] := by
  rintro ⟨before, x, later, heq, -⟩
  exact absurd heq.symm (List.append_ne_nil_of_right_ne_nil _ (List.cons_ne_nil _ _))

/-- One thing more: it is of the first kind, or it is not of the second and nothing of this happened
before. -/
theorem since_concat {α : Type} {p q : α → Bool} {past : List α} {x : α} :
    Since p q (past ++ [x]) ↔ p x ∨ Since p q past ∧ ¬ q x := by
  constructor
  · rintro ⟨before, y, later, heq, hy, hlater⟩
    -- the thing itself is the last of the history, or the history without its last says it already
    rcases List.eq_nil_or_concat' later with rfl | ⟨later, z, rfl⟩
    · obtain ⟨-, hx⟩ := List.append_inj' heq rfl
      obtain rfl : x = y := List.head_eq_of_cons_eq hx
      exact .inl hy
    · rw [← List.cons_append, ← List.append_assoc] at heq
      obtain ⟨rfl, hx⟩ := List.append_inj' heq rfl
      obtain rfl : x = z := List.head_eq_of_cons_eq hx
      exact .inr ⟨⟨before, y, later, rfl, hy, fun w hw => hlater w (List.mem_append_left _ hw)⟩,
        hlater x (List.mem_append_right _ (List.mem_singleton_self x))⟩
  · -- the other way, the last thing is put behind what was known of the history
    rintro (hx | ⟨⟨before, y, later, rfl, hy, hlater⟩, hx⟩)
    · exact ⟨past, x, [], rfl, hx, by simp⟩
    · refine ⟨before, y, later ++ [x], by simp, hy, fun z hz => ?_⟩
      rcases List.mem_append.mp hz with hz | hz
      · exact hlater z hz
      · rwa [List.mem_singleton.mp hz]

end Stomp
