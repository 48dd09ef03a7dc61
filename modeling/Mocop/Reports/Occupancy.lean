import Mocop.Models
import Mocop.Lib.Dict

/-!
# `Mocop.Reports.Occupancy`: pairing process transitions into runs

A run is one process holding one device between two observations. `pairIntervals` pairs the
transitions of one device with its live process table and clips the runs to the window,
`mergeIntervals` is the wall-clock union of one owner's runs on one device.
-/

set_option autoImplicit false

namespace Mocop

/-- A process of a device: its PID and its name. -/
abbrev ProcessKey := ℕ × String

/-- The serialized workload of a process. A value that is no text is `none`. -/
abbrev WorkloadDict := Dict String (Option String)

/-- One `started` or `stopped` edge of a GPU process, as the occupancy reads it. -/
structure ProcessTransition where
  observedAt : String
  event : String
  pid : ℕ
  name : String
  workload : Option WorkloadDict
  firstSeenAt : Option String

/-- One process's clipped occupancy of a single device. -/
structure Interval where
  start : ℚ
  end_ : ℚ
  owner : Option String
  kind : String
  sampledSeconds : ℚ := 0
  idleSeconds : ℚ := 0
  deriving DecidableEq

/-- The text of a workload kind. -/
def WorkloadKind.text : WorkloadKind → String
  | .process => "process"
  | .slurm => "slurm"
  | .kubernetes => "kubernetes"
  | .docker => "docker"
  | .podman => "podman"

/-- The serialized form of a workload. -/
def WorkloadMetadata.toDict (workload : WorkloadMetadata) : WorkloadDict :=
  Dict.ofList
    [("kind", some workload.kind.text), ("workload_id", workload.workloadId),
      ("name", workload.name), ("owner", workload.owner), ("queue", workload.queue),
      ("namespace", workload.namespaceName), ("command", workload.command),
      ("started_at", workload.startedAt), ("cpu_seconds", none), ("rss_mib", none)]

/-- The text that a workload holds under a name, if it is not empty. -/
def workloadText (workload : Option WorkloadDict) (name : String) : Option String :=
  match workload.bind (fun fields => (fields.get? name).join) with
  | some text => if text = "" then none else some text
  | none => none

/-- Who holds the device, and through what. -/
def attribution (workload : Option WorkloadDict) : Option String × String :=
  (workloadText workload "owner", (workloadText workload "kind").getD "process")

/-- `first or second`: an absent or an empty workload is replaced. -/
def workloadOr (first second : Option WorkloadDict) : Option WorkloadDict :=
  match first with
  | some fields => if fields.entries.isEmpty then second else some fields
  | none => second

/-- The progress of the pairing. `open_` holds the starts without a stop. -/
structure Pairing where
  intervals : List Interval
  dropped : ℕ
  earliest : Option ℚ
  open_ : Dict ProcessKey (ℚ × Option WorkloadDict)

/-- The pairing before the first transition. -/
def Pairing.init : Pairing where
  intervals := []
  dropped := 0
  earliest := none
  open_ := ∅

/-- Counts a record that cannot be placed. -/
def Pairing.drop (p : Pairing) : Pairing := { p with dropped := p.dropped + 1 }

/-- The earlier of a time and the earliest one so far. -/
def earlier (earliest : Option ℚ) (time : ℚ) : ℚ :=
  match earliest with
  | some best => if time < best then time else best
  | none => time

section Pairing

variable (epochSeconds : String → Option ℚ) (windowStart nowEpoch : ℚ)

/-- Appends a run, clipped to the window. -/
def Pairing.close (p : Pairing) (start end_ : ℚ) (workload : Option WorkloadDict) : Pairing :=
  let clippedStart := max start windowStart
  let clippedEnd := min end_ nowEpoch
  if clippedEnd ≤ clippedStart then p
  else
    let (owner, kind) := attribution workload
    { p with
      intervals := p.intervals
        ++ [{ start := clippedStart, end_ := clippedEnd, owner := owner, kind := kind }] }

/-- Pairs one transition. -/
def Pairing.transition (p : Pairing) (event : ProcessTransition) : Pairing :=
  match epochSeconds event.observedAt with
  | none => p.drop
  | some observed =>
    let p := { p with earliest := some (earlier p.earliest observed) }
    let key : ProcessKey := (event.pid, event.name)
    let opened := p.open_.get? key
    let p := { p with open_ := p.open_.erase key }
    if event.event = "started" then
      -- A missed stop: the replacement start bounds the old run.
      let p :=
        match opened with
        | some (started, workload) => p.close windowStart nowEpoch started observed workload
        | none => p
      { p with open_ := p.open_.set key (observed, event.workload) }
    else
      match opened with
      | some (started, workload) =>
        p.close windowStart nowEpoch started observed (workloadOr workload event.workload)
      | none =>
        -- The matching start has left the timeline, so the stop's own first
        -- observation of the process anchors the run.
        match event.firstSeenAt.bind epochSeconds with
        | some anchored =>
          if anchored ≤ observed then
            Pairing.close windowStart nowEpoch
              { p with earliest := some (earlier p.earliest anchored) }
              anchored observed event.workload
          else p.drop
        | none => p.drop

variable (activeUntil : ℚ) (active : Dict ProcessKey GpuProcess)

/-- Extends one unmatched start, for which only the live table is evidence. -/
def Pairing.extendOpen (p : Pairing) (entry : ProcessKey × ℚ × Option WorkloadDict) : Pairing :=
  if active.contains entry.1 then
    p.close windowStart nowEpoch entry.2.1 activeUntil entry.2.2
  else p.drop

/-- Adds one live process that never emitted a start. -/
def Pairing.seed (p : Pairing) (entry : ProcessKey × GpuProcess) : Pairing :=
  if p.open_.contains entry.1 then p
  else
    match entry.2.firstSeenAt.bind epochSeconds with
    | some anchored =>
      p.close windowStart nowEpoch anchored activeUntil (entry.2.workload.map (·.toDict))
    | none => p.drop

/-- The runs of one device, the number of records that could not be placed, and the
earliest transition. -/
def pairIntervals (events : List ProcessTransition) (active : Dict ProcessKey GpuProcess)
    (observedUntil : Option ℚ) : List Interval × ℕ × Option ℚ :=
  let activeUntil :=
    match observedUntil with
    | some until_ => min nowEpoch until_
    | none => nowEpoch
  let p := events.foldl (Pairing.transition epochSeconds windowStart nowEpoch) Pairing.init
  let p := p.open_.entries.foldl (Pairing.extendOpen windowStart nowEpoch activeUntil active) p
  let p := active.entries.foldl (Pairing.seed epochSeconds windowStart nowEpoch activeUntil) p
  (p.intervals, p.dropped, p.earliest)

end Pairing

/-- Adds an interval to the merged ones: it extends the last one when it starts within it. -/
def mergeInterval (merged : List Interval) (interval : Interval) : List Interval :=
  match merged.getLast? with
  | some last =>
    if interval.start ≤ last.end_ then
      merged.dropLast ++ [{ last with end_ := max last.end_ interval.end_ }]
    else merged ++ [{ interval with sampledSeconds := 0, idleSeconds := 0 }]
  | none => merged ++ [{ interval with sampledSeconds := 0, idleSeconds := 0 }]

/-- The union of one owner's intervals on one device. -/
def mergeIntervals (intervals : List Interval) : List Interval :=
  (intervals.mergeSort fun a b => a.start < b.start || a.start = b.start && a.end_ ≤ b.end_).foldl
    mergeInterval []

end Mocop
