import TokenDump.Session.Step

/-!
# Observing

Two sessions side by side that do the same steps, but for hidden ones, which only one of them may
do. If a hidden step leaves the sessions related, and every other step looks the same in related
sessions and leaves them related too (`Masks`), then the sessions look alike.

Results:
1. `Masks.observe_filter`: one of the sessions leaves out the hidden steps.
2. `Masks.observe_eq`: each of the sessions has hidden steps of its own.
-/

namespace TokenDump.Session

variable {α : Type}

/-- What is seen of some steps, other than the hidden ones. -/
def observe (hidden : Step → Bool) (see : Session → Step → α) (session : Session) :
    List Step → List α
  | [] => []
  | step :: steps =>
    if hidden step then observe hidden see (session.step step).2 steps
    else see session step :: observe hidden see (session.step step).2 steps

/-- Hidden steps can be told by nothing that is seen of related sessions, as far as the steps are
admitted. -/
structure Masks (Related : Session → Session → Prop) (hidden : Step → Bool)
    (admitted : Step → Prop) (see : Session → Step → α) : Prop where
  /-- One of the sessions does a hidden step. -/
  skip {left right : Session} {step : Step} :
    Related left right → hidden step = true → Related (left.step step).2 right
  seen {left right : Session} {step : Step} :
    Related left right → admitted step → see left step = see right step
  /-- Both sessions do the step. -/
  keep {left right : Session} {step : Step} :
    Related left right → hidden step = false → admitted step →
      Related (left.step step).2 (right.step step).2

variable {Related : Session → Session → Prop} {hidden : Step → Bool} {admitted : Step → Prop}
  {see : Session → Step → α} {left right : Session} {steps steps' : List Step}

/-- One of the sessions may leave out the hidden steps. -/
theorem Masks.observe_filter (h : Masks Related hidden admitted see) (related : Related left right)
    (fit : ∀ step ∈ steps, admitted step) :
    left.observe hidden see steps = right.observe hidden see (steps.filter (!hidden ·)) ∧
      Related (left.play steps).2 (right.play (steps.filter (!hidden ·))).2 := by
  induction steps generalizing left right with
  | nil => exact ⟨rfl, related⟩
  | cons step steps ih =>
    obtain ⟨first, others⟩ := List.forall_mem_cons.mp fit
    cases unseen : hidden step with
    | true =>
      -- Only the left session does the step.
      rw [List.filter_cons_of_neg (by simp [unseen]), observe, if_pos unseen]
      exact ih (h.skip related unseen) others
    | false =>
      have shown : ¬ hidden step = true := by simp [unseen]
      obtain ⟨same, onward⟩ := ih (h.keep related unseen first) others
      rw [List.filter_cons_of_pos (by simp [unseen]), observe, observe, if_neg shown, if_neg shown,
        h.seen related first, same]
      exact ⟨rfl, onward⟩

/-- Both sessions end up related to one that did no hidden step. -/
theorem Masks.observe_eq (h : Masks Related hidden admitted see) (refl : Related right right)
    (related : Related left right) (fit : ∀ step ∈ steps, admitted step)
    (fit' : ∀ step ∈ steps', admitted step)
    (same : steps.filter (!hidden ·) = steps'.filter (!hidden ·)) :
    left.observe hidden see steps = right.observe hidden see steps' ∧
      ∃ plain, Related (left.play steps).2 plain ∧ Related (right.play steps').2 plain := by
  obtain ⟨seen, onward⟩ := h.observe_filter related fit
  obtain ⟨seen', onward'⟩ := h.observe_filter refl fit'
  rw [same] at seen onward
  exact ⟨seen.trans seen'.symm, _, onward, onward'⟩

end TokenDump.Session
