import Formulary.CommandLine.Execution
import Formulary.Proofs.Session.Steps
import Formulary.Proofs.Text

namespace Formulary.CommandLine

variable {World α β : Type}

section Performing

variable {after : Standing Work World} {work : Work} {world : World}

theorem perform_settle (result : Except Error α) (standing : Standing Work World) :
    perform (settle result : WorkM (StateM World) α) standing =
      (result.mapError Failure.error, standing) := by
  cases result <;> rfl

section Sessions

variable {session : Session} {output : String} {notes : List String}
variable {action : SessionM (StateM World) α} {value : α}

theorem perform_step (action : SessionM (StateM World) α) :
    perform (step action) ⟨⟨session, output, notes⟩, world⟩ =
      let outcome := perform action ⟨session, world⟩
      (outcome.1.mapError Failure.error,
        ⟨⟨outcome.2.state, output, notes⟩, outcome.2.world⟩) := by
  have opened : perform (step action) ⟨⟨session, output, notes⟩, world⟩ =
      perform (settle (perform action ⟨session, world⟩).1)
        ⟨⟨(perform action ⟨session, world⟩).2.state, output, notes⟩,
          (perform action ⟨session, world⟩).2.world⟩ := rfl
  rw [opened, perform_settle]

theorem perform_step_ok {standing : Standing Session World}
    (done : perform action ⟨session, world⟩ = (.ok value, standing)) :
    perform (step action) ⟨⟨session, output, notes⟩, world⟩ =
      (.ok value, ⟨⟨standing.state, output, notes⟩, standing.world⟩) := by
  rw [perform_step, done]
  rfl

theorem perform_step_inv
    (done : perform (step action) ⟨⟨session, output, notes⟩, world⟩ = (.ok value, after)) :
    ∃ standing, perform action ⟨session, world⟩ = (.ok value, standing) ∧
      after = ⟨⟨standing.state, output, notes⟩, standing.world⟩ := by
  rw [perform_step] at done
  generalize perform action ⟨session, world⟩ = outcome at done
  rcases outcome with ⟨_ | result, standing⟩
  · cases done
  · cases done
    exact ⟨standing, rfl, rfl⟩

end Sessions

theorem perform_printLine (line : String) :
    perform (printLine line : WorkM (StateM World) Unit) ⟨work, world⟩ =
      (.ok (), ⟨{ work with output := work.output ++ Text.page [line] }, world⟩) := by
  rw [Text.page_singleton]
  rfl

theorem perform_printLines (lines : List String) :
    perform (lines.forM printLine : WorkM (StateM World) Unit) ⟨work, world⟩ =
      (.ok (), ⟨{ work with output := work.output ++ Text.page lines }, world⟩) := by
  induction lines generalizing work with
  | nil =>
    rw [Text.page_nil, String.append_empty]
    rfl
  | cons line rest ih =>
    have opened : ((line :: rest).forM printLine : WorkM (StateM World) Unit) =
        printLine line >>= fun _ => rest.forM printLine := rfl
    rw [opened, perform_bind_ok (perform_printLine line), ih, String.append_assoc,
      ← Text.page_append, List.singleton_append]

end Performing

section Loading

variable {host : Host (StateM World)} {work : Work} {world : World} {after : Standing Work World}

def textOf (path : Path) : Except OsFault (Except OsFault Text.Bytes) → Except Error String
  | .error fault | .ok (.error fault) => .error (.file path fault)
  | .ok (.ok content) =>
    match content.text? with
    | some text => .ok text
    | none => .error (.file path .notText)

theorem perform_readText (path : Path) :
    perform (readText host path) ⟨work, world⟩ =
      ((textOf path (host.read path world).1).mapError Failure.error,
        ⟨work, (host.read path world).2⟩) := by
  have opened : perform (host.read path : WorkM (StateM World) _) ⟨work, world⟩ =
      (.ok (host.read path world).1, ⟨work, (host.read path world).2⟩) := rfl
  unfold readText
  rw [perform_bind_ok opened]
  generalize (host.read path world).1 = reading
  rcases reading with fault | fault | content
  · rfl
  · rfl
  · dsimp only [textOf]
    cases content.text? <;> rfl

/-- What a file stands for, from what reading it gives. -/
def loaded (decode : String → Except Error α) (path : Path)
    (reading : Except OsFault (Except OsFault Text.Bytes)) : Except Error α :=
  (textOf path reading).bind decode

theorem perform_load (decode : String → Except Error α) (path : Path) :
    perform (readText host path >>= fun text => settle (decode text)) ⟨work, world⟩ =
      ((loaded decode path (host.read path world).1).mapError Failure.error,
        ⟨work, (host.read path world).2⟩) := by
  unfold loaded
  rw [perform_bind, perform_readText]
  cases textOf path (host.read path world).1 with
  | error error => rfl
  | ok text => exact perform_settle (decode text) _

theorem perform_load_ok {decode : String → Except Error α} {path : Path} {value : α}
    (found : loaded decode path (host.read path world).1 = .ok value) :
    perform (readText host path >>= fun text => settle (decode text)) ⟨work, world⟩ =
      (.ok value, ⟨work, (host.read path world).2⟩) := by
  rw [perform_load, found]
  rfl

theorem perform_load_inv {decode : String → Except Error α} {path : Path} {value : α}
    (done : perform (readText host path >>= fun text => settle (decode text)) ⟨work, world⟩ =
      (.ok value, after)) :
    loaded decode path (host.read path world).1 = .ok value ∧
      after = ⟨work, (host.read path world).2⟩ := by
  rw [perform_load] at done
  generalize loaded decode path (host.read path world).1 = result at done ⊢
  cases result with
  | error error => cases done
  | ok found =>
    cases done
    exact ⟨rfl, rfl⟩

theorem loaded_ascii {decode : String → Except Error α} {text : String} {value : α} (path : Path)
    (ascii : (text.toList.all fun letter => letter.toNat < 0x80) = true)
    (decoded : decode text = .ok value) :
    loaded decode path (.ok (.ok (.ofText text))) = .ok value := by
  have read : (Text.Bytes.ofText text).text? = some text := by
    refine Text.text?_ofText fun letter member => ?_
    exact of_decide_eq_true (List.all_eq_true.mp ascii letter member)
  simp only [loaded, textOf, read]
  exact decoded

end Loading

section Reports

variable {host : Host (StateM World)} {world : World}

def beginning (request : Request) (world : World) : Standing Work World :=
  ⟨⟨.new request.config, "", []⟩, world⟩

/-- Everything that a request reports is known from where it ends. -/
theorem report_eq (request : Request) :
    (request.perform host world).1 =
      let outcome := perform (request.steps host) (beginning request world)
      ⟨outcome.2.state.output, outcome.2.state.notes,
        match outcome.1 with
        | .ok () => none
        | .error failure => some failure⟩ := by
  simp only [Request.perform, bind, StateT.bind]
  split
  rename_i pair last ran
  have performed : perform (request.steps host) (beginning request world) =
      (pair.1, ⟨pair.2, last⟩) :=
    congrArg (fun final => (final.1.1, (⟨final.1.2, final.2⟩ : Standing Work World))) ran
  rw [performed]
  -- A scratch directory is removed, which does not show in the report.
  cases pair.2.session.scratch <;> rfl

theorem report_of_done {request : Request} {after : Standing Work World}
    (done : perform (request.steps host) (beginning request world) = (.ok (), after)) :
    (request.perform host world).1 = ⟨after.state.output, after.state.notes, none⟩ := by
  rw [report_eq, done]

theorem report_succeeded {request : Request}
    (succeeded : (request.perform host world).1.failure = none) :
    ∃ after, perform (request.steps host) (beginning request world) = (.ok (), after) ∧
      (request.perform host world).1.output = after.state.output := by
  rw [report_eq] at succeeded ⊢
  generalize perform (request.steps host) (beginning request world) = outcome at succeeded ⊢
  rcases outcome with ⟨_ | _, after⟩
  · cases succeeded
  · exact ⟨after, rfl, rfl⟩

end Reports

end Formulary.CommandLine
