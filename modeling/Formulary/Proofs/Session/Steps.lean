import Formulary.Proofs.Standing
import Formulary.Session

namespace Formulary.Session

variable {World α β : Type}

/-- The step asks the host at most. -/
def Keeps (step : SessionM (StateM World) α) : Prop :=
  ∀ standing, (perform step standing).2.state = standing.state

namespace Keeps

theorem pure (value : α) : Keeps (pure value : SessionM (StateM World) α) := fun _ => rfl

theorem throw (error : Error) : Keeps (throw error : SessionM (StateM World) α) := fun _ => rfl

theorem except (result : Except Error α) :
    Keeps (liftM result : SessionM (StateM World) α) := fun _ => by
  cases result <;> rfl

theorem host (action : StateM World α) :
    Keeps (liftM action : SessionM (StateM World) α) := fun _ => rfl

theorem bind {step : SessionM (StateM World) α} {next : α → SessionM (StateM World) β}
    (first : Keeps step) (later : ∀ value, Keeps (next value)) : Keeps (step >>= next) := by
  intro standing
  have kept := first standing
  rw [perform_bind]
  generalize perform step standing = outcome at kept ⊢
  rcases outcome with ⟨_ | value, after⟩
  · exact kept
  · exact (later value after).trans kept

theorem orFail (cause : OsFault → Error) (action : StateM World (Except OsFault α)) :
    Keeps (orFail cause action) := by
  refine (host action).bind fun outcome => ?_
  cases outcome with
  | ok value => exact pure value
  | error fault => exact throw (cause fault)

end Keeps

section Asking

variable (host : Host (StateM World))

theorem store_keeps (path : Path) (text : String) : Keeps (store host path text) :=
  (Keeps.orFail _ _).bind fun _ => (Keeps.orFail _ _).bind fun _ => Keeps.orFail _ _

theorem execute_keeps (program input output : Path) :
    Keeps (execute host program input output) := by
  refine (Keeps.host (host.isThere program)).bind fun there => ?_
  cases there with
  | false => exact Keeps.throw _
  | true =>
    refine (Keeps.orFail _ _).bind fun completion => ?_
    split
    · exact Keeps.pure ()
    · exact Keeps.throw _

theorem feed_keeps (program input output : Path) (batch : Batch) :
    Keeps (feed host program input output batch) := by
  refine (Keeps.orFail _ _).bind fun _ => ?_
  split
  · exact Keeps.orFail _ _
  · exact execute_keeps host program input output

theorem readFile_keeps (path : Path) : Keeps (readFile host path) := by
  refine (Keeps.orFail _ _).bind fun reading => ?_
  cases reading with
  | ok content => exact Keeps.pure content
  | error fault => exact Keeps.throw _

theorem readResults_keeps (path : Path) : Keeps (readResults host path) :=
  (readFile_keeps host path).bind fun content => Keeps.except (linesOf path content)

theorem checkAllSatisfied_keeps (path : Path) : Keeps (checkAllSatisfied host path) :=
  (readFile_keeps host path).bind fun content => Keeps.except (allTruthy path content.lines)

end Asking

def Leaves (step : SessionM (StateM World) α) (standing : Standing Session World)
    (failed : Session → Prop) (succeeded : α → Session → Prop) : Prop :=
  match perform step standing with
  | (.error _, after) => failed after.state
  | (.ok value, after) => succeeded value after.state

namespace Leaves

variable {step : SessionM (StateM World) α} {next : α → SessionM (StateM World) β}
variable {failed : Session → Prop} {succeeded : β → Session → Prop}

theorem bind {standing : Standing Session World}
    (first : Leaves step standing failed fun value middle =>
      ∀ world, Leaves (next value) ⟨middle, world⟩ failed succeeded) :
    Leaves (step >>= next) standing failed succeeded := by
  unfold Leaves at first ⊢
  rw [perform_bind]
  generalize perform step standing = outcome at first ⊢
  rcases outcome with ⟨_ | value, middle⟩
  · exact first
  · exact first middle.world

theorem ask {session : Session} {world : World} (keeps : Keeps step) (stopped : failed session)
    (later : ∀ value world, Leaves (next value) ⟨session, world⟩ failed succeeded) :
    Leaves (step >>= next) ⟨session, world⟩ failed succeeded := by
  have kept := keeps ⟨session, world⟩
  refine bind ?_
  unfold Leaves
  generalize perform step ⟨session, world⟩ = outcome at kept ⊢
  rcases outcome with ⟨_ | value, middle⟩
  · cases kept
    exact stopped
  · cases kept
    exact later value

theorem of_ok {standing after : Standing Session World} {stopped : Session → Prop}
    {made : α → Session → Prop} {value : α} (leaves : Leaves step standing stopped made)
    (done : perform step standing = (.ok value, after)) : made value after.state := by
  unfold Leaves at leaves
  rwa [done] at leaves

theorem imp {standing : Standing Session World} {stopped other : Session → Prop}
    {made result : α → Session → Prop} (leaves : Leaves step standing stopped made)
    (onFailure : ∀ after, stopped after → other after)
    (onSuccess : ∀ value after, made value after → result value after) :
    Leaves step standing other result := by
  unfold Leaves at leaves ⊢
  split at leaves
  · exact onFailure _ leaves
  · exact onSuccess _ _ leaves

theorem get_bind {next : Session → SessionM (StateM World) β} {session : Session} {world : World}
    (later : Leaves (next session) ⟨session, world⟩ failed succeeded) :
    Leaves (get >>= next) ⟨session, world⟩ failed succeeded := later

end Leaves

/-- A session enters the directory that it has, or else a scratch directory. -/
inductive Enters (session : Session) : Path → Session → Prop where
  | known {directory : Path} (has : session.workDirectory? = some directory) :
      Enters session directory session
  | made (directory : Path) (unknown : session.workDirectory? = none) :
      Enters session directory { session with scratch := some directory }

namespace Enters

variable {session entered : Session} {directory : Path}

theorem same (enters : Enters session directory entered) :
    ∃ scratch, entered = { session with scratch } := by
  cases enters with
  | known _ => exact ⟨session.scratch, rfl⟩
  | made _ => exact ⟨some directory, rfl⟩

theorem workDirectory? (enters : Enters session directory entered) :
    entered.workDirectory? = some directory := by
  cases enters with
  | known has => exact has
  | made unknown =>
    simp_all [Session.workDirectory?]

end Enters

section Acting

variable (host : Host (StateM World)) (session : Session) (world : World)

theorem workDirectory_leaves :
    Leaves (workDirectory host) ⟨session, world⟩ (· = session) (Enters session) := by
  refine Leaves.get_bind ?_
  split
  · rename_i directory known
    exact .known known
  · rename_i unknown
    refine Leaves.ask (Keeps.orFail _ _) rfl fun directory world => ?_
    exact .made directory unknown

/-- Rows and a program that were there before do not outlive a generation. -/
theorem generateTo_leaves (formula : Formula) (path : Path) :
    Leaves (generateTo host formula path) ⟨session, world⟩ (· = session)
      fun _ after => ∃ program, formula.program = .ok program ∧
        after = session.generated program.columns path := by
  refine Leaves.bind ?_
  cases lowered : formula.program with
  | error error => exact rfl
  | ok program =>
    refine fun world => Leaves.ask (store_keeps host path program.source) rfl fun _ world => ?_
    exact ⟨program, rfl, rfl⟩

theorem generate_leaves (formula : Formula) :
    Leaves (generate host formula) ⟨session, world⟩
      (fun after => after = session ∨ ∃ directory, Enters session directory after)
      fun _ after => ∃ program directory entered, formula.program = .ok program ∧
        Enters session directory entered ∧
        after = entered.generated program.columns (entered.config.sourcePath directory) := by
  refine Leaves.bind ((workDirectory_leaves host session world).imp ?_ ?_)
  · rintro _ rfl
    exact .inl rfl
  · rintro directory entered enters world
    refine Leaves.get_bind ((generateTo_leaves host entered world formula _).imp ?_ ?_)
    · rintro _ rfl
      exact .inr ⟨directory, enters⟩
    · rintro _ _ ⟨program, lowered, rfl⟩
      exact ⟨program, directory, entered, lowered, enters, rfl⟩

theorem addRows_leaves (rows : List Row) :
    Leaves (addRows rows) ⟨session, world⟩ (· = session) fun _ after =>
      ∃ lines, encodeRows session.columns session.batch.size rows = .ok lines ∧
        after = { session with batch := session.batch.append lines } := by
  refine Leaves.get_bind ?_
  cases encoded : encodeRows session.columns session.batch.size rows with
  | error error => exact rfl
  | ok lines => exact ⟨lines, rfl, rfl⟩

/-- A compilation needs a source. One that fails may still have made the scratch directory. -/
theorem compile_leaves :
    Leaves (compile host) ⟨session, world⟩
      (fun after => after = session ∨ ∃ directory, Enters session directory after)
      fun _ after => session.source.isSome ∧ ∃ directory entered,
        Enters session directory entered ∧ after = entered.compiled directory := by
  refine Leaves.get_bind ?_
  split
  · exact .inl rfl
  · rename_i source known
    refine Leaves.bind ((workDirectory_leaves host session world).imp ?_ ?_)
    · rintro _ rfl
      exact .inl rfl
    · rintro directory entered enters world
      refine Leaves.get_bind (Leaves.ask (Keeps.orFail _ _) (.inr ⟨directory, enters⟩) ?_)
      intro completion world
      dsimp only
      split
      · refine Leaves.ask (Keeps.host _) (.inr ⟨directory, enters⟩) fun there world => ?_
        cases there with
        | false => exact .inr ⟨directory, enters⟩
        | true => exact ⟨by simp [known], directory, entered, enters, rfl⟩
      · exact .inr ⟨directory, enters⟩

theorem tally_leaves (output : Path) (rows : Nat) :
    Leaves (tally host output rows) ⟨session, world⟩ (· = session)
      fun _ after => after = session.counted rows := by
  refine Leaves.ask (readResults_keeps host output) rfl fun lines world => ?_
  dsimp only
  split
  · rename_i same
    rw [same]
    exact rfl
  · exact rfl

theorem simulate_leaves (input output : Path) :
    Leaves (simulate host input output) ⟨session, world⟩ (· = session)
      fun _ after => after = session.counted session.batch.size := by
  refine Leaves.get_bind ?_
  cases session.program with
  | none => exact rfl
  | some program =>
    refine Leaves.ask (feed_keeps host program input output session.batch) rfl fun _ world => ?_
    exact tally_leaves host session world output session.batch.size

end Acting

end Formulary.Session
