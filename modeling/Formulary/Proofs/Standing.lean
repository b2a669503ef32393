namespace Formulary

structure Standing (State World : Type) where
  state : State
  world : World

variable {Fault State World α β : Type}

/-- The result of a step, and what it leaves. -/
def perform (step : ExceptT Fault (StateT State (StateM World)) α)
    (standing : Standing State World) : Except Fault α × Standing State World :=
  let outcome := (step.run.run standing.state).run standing.world
  (outcome.1.1, ⟨outcome.1.2, outcome.2⟩)

section Sequences

variable {step : ExceptT Fault (StateT State (StateM World)) α}
variable {next : α → ExceptT Fault (StateT State (StateM World)) β}
variable {standing ready after : Standing State World}

theorem perform_bind (step : ExceptT Fault (StateT State (StateM World)) α)
    (next : α → ExceptT Fault (StateT State (StateM World)) β)
    (standing : Standing State World) :
    perform (step >>= next) standing =
      match perform step standing with
      | (.ok value, after) => perform (next value) after
      | (.error fault, after) => (.error fault, after) := by
  have opened : perform (step >>= next) standing =
      perform (.mk (ExceptT.bindCont next (perform step standing).1)) (perform step standing).2 :=
    rfl
  rw [opened]
  rcases perform step standing with ⟨_ | _, after⟩ <;> rfl

theorem perform_bind_ok {value : α} (done : perform step standing = (.ok value, ready)) :
    perform (step >>= next) standing = perform (next value) ready := by
  rw [perform_bind, done]

theorem perform_bind_error {fault : Fault}
    (failed : perform step standing = (.error fault, ready)) :
    perform (step >>= next) standing = (.error fault, ready) := by
  rw [perform_bind, failed]

theorem perform_bind_inv {result : β}
    (done : perform (step >>= next) standing = (.ok result, after)) :
    ∃ value middle, perform step standing = (.ok value, middle) ∧
      perform (next value) middle = (.ok result, after) := by
  rw [perform_bind] at done
  generalize perform step standing = outcome at done
  rcases outcome with ⟨_ | value, middle⟩
  · cases done
  · exact ⟨value, middle, rfl, done⟩

theorem perform_get_bind (next : State → ExceptT Fault (StateT State (StateM World)) α)
    (standing : Standing State World) :
    perform (get >>= next) standing = perform (next standing.state) standing := rfl

theorem perform_except (result : Except Fault α) (standing : Standing State World) :
    perform (liftM result : ExceptT Fault (StateT State (StateM World)) α) standing =
      (result, standing) := by
  cases result <;> rfl

end Sequences

section Hosts

variable {state : State} {world left : World} {action : StateM World α} {value : α}

theorem perform_host (done : action world = (value, left)) :
    perform (liftM action : ExceptT Fault (StateT State (StateM World)) α) ⟨state, world⟩ =
      (.ok value, ⟨state, left⟩) := by
  have opened : perform (liftM action : ExceptT Fault (StateT State (StateM World)) α)
      ⟨state, world⟩ = (.ok (action world).1, ⟨state, (action world).2⟩) := rfl
  rw [opened, done]

theorem perform_host_inv {standing after : Standing State World}
    (done : perform (liftM action : ExceptT Fault (StateT State (StateM World)) α) standing =
      (.ok value, after)) :
    action standing.world = (value, after.world) ∧ after.state = standing.state := by
  cases done
  exact ⟨rfl, rfl⟩

end Hosts

end Formulary
