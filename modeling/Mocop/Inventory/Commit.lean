import Mocop.Inventory.Mutations

/-!
# `Mocop.Inventory.Commit`: the steps of a configuration commit

`commitConfig` writes a document the way the dashboard does: into a private temporary file
that is synced, loaded again and renamed over the configuration, then the directory is synced
and the runtime is told. Each step of the operating system can be refused, and
`refuses` says which ones are.

The rename is the point of no return. `atomicReplace_refused` covers every failure before it
and `commitConfig_replaced` what happens after it. A directory that cannot be opened, synced
or closed raises after the file has changed and before the runtime is told, so
`commitConfig_atomic_iff` carries a condition.
-/

set_option autoImplicit false

namespace Mocop

/-! ### The machine under a commit -/

/-- The bytes of a file. -/
abbrev Bytes : Type := List UInt8

/-- The calls to the operating system, in the order of a commit. -/
inductive SystemStep where
  | makeTemporary
  | setMode
  | openStream
  | write
  | flush
  | syncFile
  | closeStream
  | readTemporary
  | replace
  | openDirectory
  | syncDirectory
  | closeDirectory
  | closeDescriptor
  | unlinkTemporary
  deriving DecidableEq

/-- What stops a commit. -/
inductive CommitFailure where
  | os (step : SystemStep)
  | config
  | prepare
  | runtime
  | inventory (message : String)

/-- The failures that the commit reports as an update that could not be made. -/
def CommitFailure.isCaught : CommitFailure → Bool
  | .os _ | .config => true
  | .prepare | .runtime | .inventory _ => false

/-- The configuration file, the temporary one, the raw descriptor that is still ours to close,
and the configurations that the runtime was told. -/
structure Machine (V : Type) where
  file : Bytes
  temporary : Option Bytes := none
  descriptor : Bool := false
  runtime : List (MonitorConfig V) := []

/-- A step of a commit. What it did to the machine stays when it fails. -/
abbrev Committing (V : Type) := ExceptT CommitFailure (StateM (Machine V))

/-- What surrounds one commit: the refused steps, the bytes that a torn write leaves, the
serialized form of documents, and the callbacks. -/
structure CommitPort (V : Type) where
  refuses : SystemStep → Bool
  torn : Bytes
  encode : ConfigDocument V → Bytes
  decode : Bytes → Option (ConfigDocument V)
  prepare : MonitorConfig V → Bool
  onConfigChanged : MonitorConfig V → Bool

section Commit

variable {V : Type} (rules : ValueRules V) (port : CommitPort V)

/-- One call to the operating system. -/
def call (step : SystemStep) (effect : Machine V → Machine V) : Committing V Unit :=
  if port.refuses step then throw (.os step) else modify effect

/-- Writes the payload to the temporary file, or a part of it. -/
def writePayload (payload : Bytes) : Committing V Unit := do
  if port.refuses .write then modify fun m => { m with temporary := some port.torn }
  call port .write fun m => { m with temporary := some payload }

/-- Runs the body, then the cleanup in every case. A failing cleanup replaces the outcome. -/
def ensure {α : Type} (body : Committing V α) (cleanup : Committing V Unit) : Committing V α :=
  fun m =>
    let (outcome, after) := body.run m
    let (cleaned, final) := cleanup.run after
    match cleaned with
    | .ok _ => (outcome, final)
    | .error failure => (.error failure, final)

/-- The configuration of some bytes. -/
def loadBytes (bytes : Bytes) : Option (MonitorConfig V) :=
  (port.decode bytes).bind fun doc => (loadConfig rules doc).toOption

/-- Loads the temporary file. -/
def loadTemporary : Committing V (MonitorConfig V) := do
  call port .readTemporary id
  let m ← get
  match m.temporary.bind (loadBytes rules port) with
  | some config => return config
  | none => throw .config

/-- Writes, syncs and loads the temporary file, and prepares the response. -/
def stageFile (payload : Bytes) : Committing V (MonitorConfig V) := do
  call port .makeTemporary fun m => { m with temporary := some [], descriptor := true }
  call port .setMode id
  call port .openStream fun m => { m with descriptor := false }
  ensure (do writePayload port payload; call port .flush id; call port .syncFile id)
    (call port .closeStream id)
  let updated ← loadTemporary rules port
  if port.prepare updated then return updated else throw .prepare

/-- Renames the temporary file over the configuration and syncs the directory. -/
def swapFile : Committing V Unit := do
  call port .replace fun m => { m with file := m.temporary.getD [], temporary := none }
  call port .openDirectory id
  ensure (call port .syncDirectory id) (call port .closeDirectory id)

/-- The steps inside the handler. -/
def replaceFile (payload : Bytes) : Committing V (MonitorConfig V) := do
  let updated ← stageFile rules port payload
  swapFile port
  return updated

/-- Reports the caught failures as an update that could not be made. -/
def reported {α : Type} (body : Committing V α) : Committing V α :=
  fun m =>
    match body.run m with
    | (.ok a, after) => (.ok a, after)
    | (.error failure, after) =>
      (.error (if failure.isCaught then
        .inventory "cluster configuration could not be updated" else failure), after)

/-- Closes the descriptor and removes the temporary file that are left. -/
def discardTemporary : Committing V Unit := do
  let m ← get
  if m.descriptor then call port .closeDescriptor fun m => { m with descriptor := false }
  if m.temporary.isSome then call port .unlinkTemporary fun m => { m with temporary := none }

/-- Replaces the configuration file by the payload. -/
def atomicReplace (payload : Bytes) : Committing V (MonitorConfig V) :=
  ensure (reported (replaceFile rules port payload)) (discardTemporary port)

/-- Tells the runtime, which may fail at its side. -/
def notifyRuntime (updated : MonitorConfig V) : Committing V (MonitorConfig V) := do
  modify fun m => { m with runtime := m.runtime ++ [updated] }
  if port.onConfigChanged updated then return updated
  else throw (.inventory "configuration was saved but runtime synchronization failed")

/-- Writes the document and tells the runtime. -/
def commitConfig (doc : ConfigDocument V) : Committing V (MonitorConfig V) := do
  let updated ← atomicReplace rules port (port.encode doc)
  notifyRuntime port updated

/-! ### Running the steps -/

variable {port} in
@[simp] theorem run_call_bind {α : Type} (step : SystemStep) (effect : Machine V → Machine V)
    (next : Unit → Committing V α) (m : Machine V) :
    (call port step effect >>= next).run m
      = if port.refuses step then (.error (.os step), m) else (next ()).run (effect m) := by
  unfold call
  split <;> rfl

variable {port} in
@[simp] theorem run_call (step : SystemStep) (effect : Machine V → Machine V) (m : Machine V) :
    (call port step effect).run m
      = if port.refuses step then (.error (.os step), m) else (.ok (), effect m) := by
  unfold call
  split <;> rfl

/-- A bind runs the rest from where the first part ended, unless that raised. -/
theorem run_bind {α β : Type} (body : Committing V α) (next : α → Committing V β)
    (m : Machine V) :
    (body >>= next).run m
      = match body.run m with
        | (.ok a, after) => (next a).run after
        | (.error failure, after) => (.error failure, after) := by
  rw [ExceptT.run_bind]
  show StateT.run (ExceptT.run body >>= _) m = _
  rw [StateT.run_bind]
  rcases houtcome : body.run m with ⟨failure | a, after⟩
  all_goals
    have hrun : StateT.run (ExceptT.run body) m = _ := houtcome
    rw [hrun]
    rfl

@[simp] theorem run_get (m : Machine V) :
    (get : Committing V (Machine V)).run m = (.ok m, m) := rfl

@[simp] theorem run_pure {α : Type} (a : α) (m : Machine V) :
    (pure a : Committing V α).run m = (.ok a, m) := rfl

@[simp] theorem run_throw {α : Type} (failure : CommitFailure) (m : Machine V) :
    (throw failure : Committing V α).run m = (.error failure, m) := rfl

@[simp] theorem run_modify (f : Machine V → Machine V) (m : Machine V) :
    (modify f : Committing V Unit).run m = (.ok (), f m) := rfl

/-- The cleanup runs where the body ended. -/
theorem run_ensure {α : Type} (body : Committing V α) (cleanup : Committing V Unit)
    (m : Machine V) :
    (ensure body cleanup).run m
      = match cleanup.run (body.run m).2 with
        | (.ok _, final) => ((body.run m).1, final)
        | (.error failure, final) => (.error failure, final) := by
  show (match cleanup.run (body.run m).2 with
    | (cleaned, final) => match cleaned with
      | .ok _ => ((body.run m).1, final)
      | .error failure => (.error failure, final)) = _
  rcases cleanup.run (body.run m).2 with ⟨failure | u, final⟩ <;> rfl

/-- The steps before the rename. -/
def stagingSteps : List SystemStep :=
  [.makeTemporary, .setMode, .openStream, .write, .flush, .syncFile, .closeStream,
    .readTemporary]

/-- The payload can be staged: no step is refused, it loads, and the response is prepared. -/
def Stages (payload : Bytes) (updated : MonitorConfig V) : Prop :=
  (∀ step ∈ stagingSteps, port.refuses step = false) ∧
    loadBytes rules port payload = some updated ∧ port.prepare updated = true

/-- The configuration and the runtime are untouched. -/
def Untouched (before after : Machine V) : Prop :=
  after.file = before.file ∧ after.runtime = before.runtime

variable {rules port}

variable {payload : Bytes}

/-- Writing a payload that nothing refuses. -/
theorem stageFile_stages {updated : MonitorConfig V} (h : Stages rules port payload updated)
    (m : Machine V) :
    (stageFile rules port payload).run m
      = (.ok updated, { m with temporary := some payload, descriptor := false }) := by
  obtain ⟨hsteps, hload, hprepare⟩ := h
  simp only [stagingSteps, List.forall_mem_cons] at hsteps
  obtain ⟨h₁, h₂, h₃, h₄, h₅, h₆, h₇, h₈, -⟩ := hsteps
  simp [stageFile, run_ensure, writePayload, loadTemporary, run_bind, *]

/-- A step that leaves the configuration and the runtime as they are. -/
def Leaves {α : Type} (body : Committing V α) : Prop := ∀ m, Untouched m (body.run m).2

theorem Untouched.trans {a b c : Machine V} (h : Untouched a b) (h' : Untouched b c) :
    Untouched a c := ⟨h'.1.trans h.1, h'.2.trans h.2⟩

theorem leaves_call {step : SystemStep} {effect : Machine V → Machine V}
    (h : ∀ m, Untouched m (effect m)) : Leaves (call port step effect) := by
  intro m
  rw [run_call]
  split
  · exact ⟨rfl, rfl⟩
  · exact h m

theorem Leaves.bind {α β : Type} {body : Committing V α} {next : α → Committing V β}
    (h : Leaves body) (hnext : ∀ a, Leaves (next a)) : Leaves (body >>= next) := by
  intro m
  have hbody := h m
  rw [run_bind]
  rcases hrun : body.run m with ⟨failure | a, after⟩ <;> rw [hrun] at hbody
  · exact hbody
  · exact hbody.trans (hnext a after)

theorem Leaves.ensure {α : Type} {body : Committing V α} {cleanup : Committing V Unit}
    (h : Leaves body) (hcleanup : Leaves cleanup) : Leaves (ensure body cleanup) := by
  intro m
  have hend := (h m).trans (hcleanup (body.run m).2)
  rw [run_ensure]
  rcases hrun : cleanup.run (body.run m).2 with ⟨failure | u, final⟩ <;>
    · rw [hrun] at hend
      exact hend

theorem leaves_pure {α : Type} (a : α) : Leaves (pure a : Committing V α) := fun _ => ⟨rfl, rfl⟩

theorem leaves_throw {α : Type} (failure : CommitFailure) :
    Leaves (throw failure : Committing V α) := fun _ => ⟨rfl, rfl⟩

/-- A step whose effect is not on the configuration. -/
theorem leaves_call_id (step : SystemStep) : Leaves (call port step id) :=
  leaves_call fun _ => ⟨rfl, rfl⟩

/-- Writing the payload, or a part of it. -/
theorem leaves_writePayload (payload : Bytes) : Leaves (writePayload port payload) := by
  have hwrite : Leaves (call port .write fun m => { m with temporary := some payload }) :=
    leaves_call fun _ => ⟨rfl, rfl⟩
  unfold writePayload
  split
  · exact Leaves.bind (fun _ => ⟨rfl, rfl⟩) fun _ => hwrite
  · exact hwrite

/-- Loading the temporary file. -/
theorem leaves_loadTemporary : Leaves (loadTemporary rules port) := by
  refine (leaves_call_id _).bind fun _ => Leaves.bind (fun _ => ⟨rfl, rfl⟩) fun m => ?_
  split
  · exact leaves_pure _
  · exact leaves_throw _

/-- Staging never touches the configuration. -/
theorem leaves_stageFile (payload : Bytes) : Leaves (stageFile rules port payload) := by
  unfold stageFile
  refine Leaves.bind (leaves_call fun _ => ⟨rfl, rfl⟩) fun _ => ?_
  refine Leaves.bind (leaves_call_id _) fun _ => ?_
  refine Leaves.bind (leaves_call fun _ => ⟨rfl, rfl⟩) fun _ => Leaves.bind ?_ fun _ => ?_
  · refine Leaves.ensure ?_ (leaves_call_id _)
    exact (leaves_writePayload payload).bind fun _ => (leaves_call_id _).bind fun _ =>
      leaves_call_id _
  · refine leaves_loadTemporary.bind fun updated => ?_
    split
    · exact leaves_pure _
    · exact leaves_throw _

/-- A bind that returns has run both parts. -/
theorem run_bind_eq_ok {α β : Type} {body : Committing V α} {next : α → Committing V β}
    {m : Machine V} {b : β} (h : ((body >>= next).run m).1 = .ok b) :
    ∃ a after, body.run m = (.ok a, after) ∧ ((next a).run after).1 = .ok b := by
  rw [run_bind] at h
  rcases hbody : body.run m with ⟨failure | a, after⟩
  · rw [hbody] at h
    cases h
  · rw [hbody] at h
    exact ⟨a, after, rfl, h⟩

/-- A call that returns was not refused. -/
theorem run_call_eq_ok {step : SystemStep} {effect : Machine V → Machine V} {m after : Machine V}
    {u : Unit} (h : (call port step effect).run m = (.ok u, after)) :
    port.refuses step = false ∧ after = effect m := by
  rw [run_call] at h
  split at h
  · cases h
  · next hrefuses =>
    cases h
    exact ⟨by simpa using hrefuses, rfl⟩

/-- A last call that returns was not refused. -/
theorem refuses_of_call_ok {step : SystemStep} {effect : Machine V → Machine V} {m : Machine V}
    {u : Unit} (h : ((call port step effect).run m).1 = .ok u) : port.refuses step = false :=
  (run_call_eq_ok (Prod.ext h rfl)).1

/-- A body that returns with its cleanup. -/
theorem run_ensure_eq_ok {α : Type} {body : Committing V α} {cleanup : Committing V Unit}
    {m final : Machine V} {a : α} (h : (ensure body cleanup).run m = (.ok a, final)) :
    (body.run m).1 = .ok a ∧ cleanup.run (body.run m).2 = (.ok (), final) := by
  rw [run_ensure] at h
  rcases hrun : cleanup.run (body.run m).2 with ⟨failure | u, after⟩
  · rw [hrun] at h
    cases h
  · rw [hrun] at h
    obtain ⟨hbody, hafter⟩ := Prod.mk.inj h
    exact ⟨hbody, by rw [← hafter]⟩

/-- Loading that returns has loaded the temporary file. -/
theorem loadTemporary_eq_ok {m after : Machine V} {updated : MonitorConfig V}
    (h : (loadTemporary rules port).run m = (.ok updated, after)) :
    port.refuses .readTemporary = false
      ∧ m.temporary.bind (loadBytes rules port) = some updated := by
  obtain ⟨_, m₁, hread, hrest⟩ := run_bind_eq_ok (congrArg Prod.fst h)
  obtain ⟨hrefuses, rfl⟩ := run_call_eq_ok hread
  obtain ⟨_, _, hget, hrest⟩ := run_bind_eq_ok hrest
  cases hget
  split at hrest
  · next config heq =>
    cases hrest
    exact ⟨hrefuses, heq⟩
  · cases hrest

/-- Writing that returns has written the payload. -/
theorem writePayload_eq_ok {m after : Machine V} {u : Unit}
    (h : (writePayload port payload).run m = (.ok u, after)) :
    port.refuses .write = false ∧ after = { m with temporary := some payload } := by
  unfold writePayload at h
  split at h
  · next hrefuses =>
    rw [run_bind, run_modify] at h
    exact absurd (run_call_eq_ok h).1 (by simp [hrefuses])
  · exact run_call_eq_ok h

/-- Staging that returns has staged the payload. -/
theorem stages_of_stageFile {m : Machine V} {updated : MonitorConfig V}
    (h : ((stageFile rules port payload).run m).1 = .ok updated) :
    Stages rules port payload updated := by
  obtain ⟨_, _, hmake, h⟩ := run_bind_eq_ok h
  obtain ⟨_, _, hmode, h⟩ := run_bind_eq_ok h
  obtain ⟨_, _, hopen, h⟩ := run_bind_eq_ok h
  obtain ⟨_, _, hstream, h⟩ := run_bind_eq_ok h
  obtain ⟨loaded, _, hload, hlast⟩ := run_bind_eq_ok h
  obtain ⟨hbody, hclose⟩ := run_ensure_eq_ok hstream
  obtain ⟨_, written, hwrite, hbody⟩ := run_bind_eq_ok hbody
  obtain ⟨_, flushed, hflush, hsync⟩ := run_bind_eq_ok hbody
  -- The stream is closed over what the sync left, which is the written payload.
  have hsynced := refuses_of_call_ok hsync
  obtain ⟨hwritten, rfl⟩ := writePayload_eq_ok hwrite
  obtain ⟨hflushed, rfl⟩ := run_call_eq_ok hflush
  obtain ⟨hclosed, rfl⟩ := run_call_eq_ok hclose
  obtain ⟨hread, hloaded⟩ := loadTemporary_eq_ok hload
  have htemporary : ∀ machine : Machine V,
      ((do writePayload port payload; call port .flush id; call port .syncFile id :
        Committing V Unit).run machine).2.temporary = some payload := by
    intro machine
    simp [run_bind, writePayload, hwritten, hflushed, hsynced]
  rw [id, htemporary, Option.bind_some] at hloaded
  have hprepared : port.prepare loaded = true ∧ loaded = updated := by
    split at hlast
    · next hprepare =>
      cases hlast
      exact ⟨hprepare, rfl⟩
    · cases hlast
  obtain ⟨hprepare, rfl⟩ := hprepared
  refine ⟨?_, hloaded, hprepare⟩
  simp only [stagingSteps, List.forall_mem_cons]
  exact ⟨(run_call_eq_ok hmake).1, (run_call_eq_ok hmode).1, (run_call_eq_ok hopen).1, hwritten,
    hflushed, hsynced, hclosed, hread, by simp⟩

/-- The rename can happen: the payload is staged and the rename is not refused. -/
def Replaces (rules : ValueRules V) (port : CommitPort V) (payload : Bytes) : Prop :=
  (∃ updated, Stages rules port payload updated) ∧ port.refuses .replace = false

/-- The directory can be opened, synced and closed. -/
def Settles (port : CommitPort V) : Prop :=
  port.refuses .openDirectory = false ∧ port.refuses .syncDirectory = false
    ∧ port.refuses .closeDirectory = false

/-- A refused rename changes nothing. -/
theorem swapFile_refused (h : port.refuses .replace = true) (m : Machine V) :
    (swapFile port).run m = (.error (.os .replace), m) := by
  simp [swapFile, h]

/-- A bind whose first part raises. -/
theorem run_bind_error {α β : Type} {body : Committing V α} {next : α → Committing V β}
    {m after : Machine V} {failure : CommitFailure}
    (h : body.run m = (.error failure, after)) :
    (body >>= next).run m = (.error failure, after) := by
  rw [run_bind, h]

/-- A rename that is not refused puts the temporary file in place; what follows says whether
it is reported. -/
theorem swapFile_run (h : port.refuses .replace = false) (m : Machine V) :
    ((swapFile port).run m).2 = { m with file := m.temporary.getD [], temporary := none }
      ∧ (((swapFile port).run m).1 = .ok () ↔ Settles port)
      ∧ ∀ failure, ((swapFile port).run m).1 = .error failure → failure.isCaught = true := by
  simp only [swapFile, run_call_bind, run_ensure, run_call, h, Settles]
  cases hopen : port.refuses .openDirectory <;> cases hsync : port.refuses .syncDirectory <;>
    cases hclose : port.refuses .closeDirectory <;> simp [CommitFailure.isCaught]

/-- A file that cannot be replaced stays as it is. -/
theorem replaceFile_refused (h : ¬ Replaces rules port payload) (m : Machine V) :
    Untouched m ((replaceFile rules port payload).run m).2
      ∧ ∃ failure, ((replaceFile rules port payload).run m).1 = .error failure := by
  have hstage := @leaves_stageFile _ rules port payload m
  unfold replaceFile
  rw [run_bind]
  rcases hrun : (stageFile rules port payload).run m with ⟨failure | updated, after⟩ <;>
    rw [hrun] at hstage
  · exact ⟨hstage, failure, rfl⟩
  · have hstages := stages_of_stageFile (congrArg Prod.fst hrun)
    have hrefused : port.refuses .replace = true := by
      by_contra hnot
      exact h ⟨⟨updated, hstages⟩, by simpa using hnot⟩
    show Untouched m ((swapFile port >>= fun _ => pure updated).run after).2
      ∧ ∃ failure, ((swapFile port >>= fun _ => pure updated).run after).1 = .error failure
    rw [run_bind_error (swapFile_refused hrefused after)]
    exact ⟨hstage, _, rfl⟩

/-- A file that can be replaced is, and whether this is reported depends on the directory. -/
theorem replaceFile_replaces {updated : MonitorConfig V}
    (hstages : Stages rules port payload updated) (hreplace : port.refuses .replace = false)
    (m : Machine V) :
    ((replaceFile rules port payload).run m).2
        = { m with file := payload, temporary := none, descriptor := false }
      ∧ (Settles port → ((replaceFile rules port payload).run m).1 = .ok updated)
      ∧ (¬ Settles port → ∃ failure, failure.isCaught = true
        ∧ ((replaceFile rules port payload).run m).1 = .error failure) := by
  obtain ⟨hafter, hok, hcaught⟩ := swapFile_run hreplace
    { m with temporary := some payload, descriptor := false }
  unfold replaceFile
  rw [run_bind, stageFile_stages hstages]
  dsimp only
  rw [run_bind]
  rcases hrun : (swapFile port).run { m with temporary := some payload, descriptor := false }
    with ⟨failure | u, after⟩ <;> rw [hrun] at hafter hok hcaught
  · refine ⟨hafter, fun hsettles => ?_, fun _ => ⟨failure, hcaught failure rfl, rfl⟩⟩
    cases hok.mpr hsettles
  · exact ⟨hafter, fun _ => rfl, fun hnot => absurd (hok.mp rfl) hnot⟩

/-- Cleaning up never touches the configuration. -/
theorem leaves_discardTemporary : Leaves (discardTemporary port) := by
  unfold discardTemporary
  refine Leaves.bind (fun _ => ⟨rfl, rfl⟩) fun m => ?_
  have hunlink : Leaves (if m.temporary.isSome then call port .unlinkTemporary fun m =>
      { m with temporary := none } else pure PUnit.unit) := by
    split
    · exact leaves_call fun _ => ⟨rfl, rfl⟩
    · exact leaves_pure _
  cases hdescriptor : m.descriptor
  · exact hunlink
  · exact Leaves.bind (leaves_call fun _ => ⟨rfl, rfl⟩) fun _ => hunlink

/-- With nothing left to clean up, cleaning up does nothing. -/
theorem run_discardTemporary {m : Machine V} (hdescriptor : m.descriptor = false)
    (htemporary : m.temporary = none) : (discardTemporary port).run m = (.ok (), m) := by
  simp [discardTemporary, run_bind, hdescriptor, htemporary]

/-- The handler turns no failure into a result and touches nothing. -/
theorem run_reported {α : Type} (body : Committing V α) (m : Machine V) :
    ((reported body).run m).2 = (body.run m).2
      ∧ (∀ a, (body.run m).1 = .ok a → ((reported body).run m).1 = .ok a)
      ∧ (∀ failure, (body.run m).1 = .error failure →
        ∃ raised, ((reported body).run m).1 = .error raised) := by
  have hcatch : (reported body).run m
      = match body.run m with
        | (.ok a, after) => (.ok a, after)
        | (.error failure, after) =>
          (.error (if failure.isCaught then
            .inventory "cluster configuration could not be updated" else failure), after) := rfl
  rw [hcatch]
  rcases body.run m with ⟨failure | a, after⟩
  · exact ⟨rfl, fun _ h => (by cases h), fun _ _ => ⟨_, rfl⟩⟩
  · exact ⟨rfl, fun _ h => h, fun _ h => by cases h⟩

/-- Replacing the file, in the three ways it can go. -/
theorem run_atomicReplace (payload : Bytes) (m : Machine V) :
    (¬ Replaces rules port payload → Untouched m ((atomicReplace rules port payload).run m).2
      ∧ ∃ failure, ((atomicReplace rules port payload).run m).1 = .error failure)
    ∧ ∀ updated, Stages rules port payload updated → port.refuses .replace = false →
      ((atomicReplace rules port payload).run m).2
        = { m with file := payload, temporary := none, descriptor := false }
      ∧ (Settles port → ((atomicReplace rules port payload).run m).1 = .ok updated)
      ∧ (¬ Settles port → ∃ failure, ((atomicReplace rules port payload).run m).1
        = .error failure) := by
  obtain ⟨hreported, hok, herror⟩ := run_reported (replaceFile rules port payload) m
  have hrun := run_ensure (reported (replaceFile rules port payload)) (discardTemporary port) m
  have hdiscard := @leaves_discardTemporary _ port
    ((reported (replaceFile rules port payload)).run m).2
  rw [hreported] at hrun hdiscard
  unfold atomicReplace
  constructor
  · intro hnot
    obtain ⟨huntouched, failure, hfailure⟩ := replaceFile_refused hnot m
    obtain ⟨raised, hraised⟩ := herror failure hfailure
    have hend := huntouched.trans hdiscard
    rw [hrun, hraised]
    rcases hfinal : (discardTemporary port).run ((replaceFile rules port payload).run m).2
      with ⟨failure | u, final⟩ <;> rw [hfinal] at hend
    · exact ⟨hend, _, rfl⟩
    · exact ⟨hend, _, rfl⟩
  · intro updated hstages hreplace
    obtain ⟨hafter, hsettled, hunsettled⟩ := replaceFile_replaces hstages hreplace m
    rw [hafter, run_discardTemporary rfl rfl] at hrun
    rw [hrun]
    refine ⟨rfl, fun h => hok _ (hsettled h), fun h => ?_⟩
    obtain ⟨failure, _, hfailure⟩ := hunsettled h
    exact herror failure hfailure

/-- The runtime is told in every case. -/
theorem run_notifyRuntime (updated : MonitorConfig V) (m : Machine V) :
    ((notifyRuntime port updated).run m).2 = { m with runtime := m.runtime ++ [updated] } := by
  unfold notifyRuntime
  rw [run_bind, run_modify]
  dsimp only
  split <;> rfl

/-- What a commit promises: it raises and the file is as it was, or the file holds the new
document and the runtime was told the new configuration. -/
def CommitsAtomically (rules : ValueRules V) (port : CommitPort V) (doc : ConfigDocument V)
    (before : Machine V) : Prop :=
  let (outcome, after) := (commitConfig rules port doc).run before
  (after.file = before.file ∧ ∃ failure, outcome = .error failure)
    ∨ (after.file = port.encode doc ∧ ∃ updated, loadBytes rules port (port.encode doc)
      = some updated ∧ after.runtime = before.runtime ++ [updated])

/-- A commit is atomic exactly when, once its document can replace the file, the directory
can be opened, synced and closed. The one exception is a document with the bytes that the
file already holds. -/
theorem commitConfig_atomic_iff (doc : ConfigDocument V) (before : Machine V) :
    CommitsAtomically rules port doc before
      ↔ (Replaces rules port (port.encode doc) → Settles port)
        ∨ port.encode doc = before.file := by
  obtain ⟨hkeeps, hreplaces⟩ := @run_atomicReplace _ rules port
    (port.encode doc) before
  unfold CommitsAtomically commitConfig
  rw [run_bind]
  rcases hrun : (atomicReplace rules port (port.encode doc)).run before
    with ⟨failure | updated, after⟩ <;> rw [hrun] at hkeeps hreplaces
  · show ((after.file = before.file ∧ ∃ raised, Except.error failure = Except.error raised)
      ∨ (after.file = port.encode doc ∧ ∃ updated, _ ∧ after.runtime = _)) ↔ _
    by_cases hrep : Replaces rules port (port.encode doc)
    · obtain ⟨⟨updated, hstages⟩, hreplace⟩ := hrep
      obtain ⟨rfl, hsettled, _⟩ := hreplaces updated hstages hreplace
      have hnot : ¬ Settles port := fun h => by cases hsettled h
      constructor
      · rintro (⟨hfile, _⟩ | ⟨_, told, _, hruntime⟩)
        · exact .inr hfile
        · have hlength := congrArg List.length hruntime
          simp at hlength
      · rintro (h | hfile)
        · exact absurd (h ⟨⟨updated, hstages⟩, hreplace⟩) hnot
        · exact .inl ⟨hfile, failure, rfl⟩
    · obtain ⟨⟨hfile, _⟩, _⟩ := hkeeps hrep
      exact ⟨fun _ => .inl fun h => absurd h hrep, fun _ => .inl ⟨hfile, failure, rfl⟩⟩
  · have hrep : Replaces rules port (port.encode doc) := by
      by_contra hnot
      obtain ⟨_, failure, hfailure⟩ := hkeeps hnot
      cases hfailure
    obtain ⟨⟨loaded, hstages⟩, hreplace⟩ := hrep
    obtain ⟨rfl, hsettled, hunsettled⟩ := hreplaces loaded hstages hreplace
    have hsettles : Settles port := by
      by_contra hnot
      obtain ⟨failure, hfailure⟩ := hunsettled hnot
      cases hfailure
    cases hsettled hsettles
    refine iff_of_true (.inr ?_) (.inl fun _ => hsettles)
    have htold := @run_notifyRuntime _ port updated
      { before with file := port.encode doc, temporary := none, descriptor := false }
    exact ⟨congrArg Machine.file htold, updated, hstages.2.1, congrArg Machine.runtime htold⟩

end Commit

/-- A document with one host. -/
private def oneHost : ConfigDocument Unit := .listing ["gpu-01"]

/-- A file system that renames but does not sync the directory. -/
private def unsyncedDirectory : CommitPort Unit where
  refuses := fun step => step = .syncDirectory
  torn := []
  encode := fun _ => [123, 125]
  decode := fun _ => some oneHost
  prepare := fun _ => true
  onConfigChanged := fun _ => true

/-- The directory cannot be synced: the commit raises although the file holds the new
document, and the runtime was not told. -/
theorem unsynced_directory_splits :
    (∃ failure after, (commitConfig .lax unsyncedDirectory oneHost).run { file := [] }
        = (.error failure, after) ∧ after.file = [123, 125] ∧ after.runtime = [])
      ∧ ¬ CommitsAtomically .lax unsyncedDirectory oneHost { file := [] } := by
  have hrun : (match (commitConfig .lax unsyncedDirectory oneHost).run { file := [] } with
      | (.error _, after) => decide (after.file = [123, 125]) && after.runtime.isEmpty
      | _ => false) = true := by
    decide +kernel
  split at hrun
  · next failure after heq =>
    simp only [Bool.and_eq_true, decide_eq_true_eq, List.isEmpty_iff] at hrun
    refine ⟨⟨failure, after, heq, hrun⟩, ?_⟩
    unfold CommitsAtomically
    rw [heq]
    rintro (⟨hfile, _⟩ | ⟨_, _, _, hruntime⟩)
    · rw [hrun.1] at hfile
      cases hfile
    · rw [hrun.2] at hruntime
      cases hruntime
  · cases hrun

end Mocop
