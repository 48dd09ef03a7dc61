import Mocop.Lib.Sorting
import Mocop.Processes.Runs
import Mathlib.Data.Prod.Lex
import Mathlib.Data.String.Basic
import Mathlib.Data.List.Dedup
import Mathlib.Data.List.DropRight

/-!
# `Mocop.Processes.Persisted`: process transitions in the database

The table of the process transitions has no sequence column. Its primary key is the device, the
time, the kind and the process, and a row whose key is taken is ignored. A hidden transition is
stored under a pseudo-host, with its device inside the row.

A restore reads the newest rows of every partition in the order of the key, decodes them, and
puts the transitions of a device back in the order of their emission: `emissionOrder` sorts by
time and process, and of a start and a stop of one process at one time the start comes first,
unless their workloads started at two different times.

The workload column is modelled by the object that its JSON text denotes, and the restore limit
by the number of rows of a partition that are kept.
-/

set_option autoImplicit false

namespace Mocop

/-- The pseudo-host of the hidden transitions. -/
def internalUsageHost : String := "\x00mocop-process-usage-v1"

/-- The name under which the first observation is stored among the fields of a workload. -/
def firstSeenKey : String := "_mocopFirstSeenAt"

/-- The primary key of a row. -/
structure ProcessRowKey where
  host : String
  gpuId : String
  observedAt : String
  event : ProcessEvent
  pid : ℕ
  name : String
  deriving DecidableEq

/-- The workload column: the fields of the workload with the first observation among them, or
the marker of a hidden transition. -/
inductive WorkloadColumn where
  | fields (fields : WorkloadDict)
  | marker (host gpuId : String) (workload : Option WorkloadDict) (firstSeenAt : Option String)

/-- The other columns of a row. -/
structure ProcessRow where
  gpuIndex : ℕ
  usedMemoryMib : Option ℚ
  workload : Option WorkloadColumn

/-- The table of the process transitions. -/
abbrev ProcessTable := Dict ProcessRowKey ProcessRow

/-! ### Writing -/

/-- The workload column of a visible transition. -/
def serializeWorkload (event : GpuProcessTransition) : Option WorkloadColumn :=
  let payload := event.workload.getD ∅
  let payload :=
    match event.firstSeenAt with
    | some firstSeenAt => payload.set firstSeenKey (some firstSeenAt)
    | none => payload
  if payload.entries.isEmpty then none else some (.fields payload)

section
variable (internalUsageGpuKey : String → String → String)

/-- The row of a transition. -/
def processRow (host : String) (event : GpuProcessTransition) : ProcessRowKey × ProcessRow :=
  if event.visible then
    (⟨host, event.gpuId, event.observedAt, event.event, event.pid, event.name⟩,
      ⟨event.index, event.usedMemoryMib, serializeWorkload event⟩)
  else
    (⟨internalUsageHost, internalUsageGpuKey host event.gpuId, event.observedAt, event.event,
        event.pid, event.name⟩,
      ⟨event.index, event.usedMemoryMib,
        some (.marker host event.gpuId event.workload event.firstSeenAt)⟩)

/-- Inserts a row, unless its key is taken. -/
def insertOrIgnore (table : ProcessTable) (row : ProcessRowKey × ProcessRow) : ProcessTable :=
  if table.contains row.1 then table else table.set row.1 row.2

/-- Writes the transitions of one sample: the visible ones, then the hidden ones. -/
def writeProcessEvents (host : String) (table : ProcessTable)
    (events : List GpuProcessTransition) : ProcessTable :=
  ((events.filter (·.visible) ++ events.filter (!·.visible)).map
    (processRow internalUsageGpuKey host)).foldl insertOrIgnore table

end

/-! ### Reading -/

/-- The partition of a row. -/
def ProcessRowKey.partition (key : ProcessRowKey) : String ×ₗ String := toLex (key.host, key.gpuId)

/-- The order of the rows of a partition. Of two kinds at one time the stop comes first. -/
def ProcessRowKey.rowOrder (key : ProcessRowKey) : String ×ₗ Bool ×ₗ ℕ ×ₗ String :=
  toLex (key.observedAt, toLex (decide (key.event = .started), toLex (key.pid, key.name)))

/-- The partitions of the table, in order. -/
def partitionKeys (table : ProcessTable) : List (String ×ₗ String) :=
  sortBy id (table.keys.map ProcessRowKey.partition).dedup

/-- The newest rows of a partition, oldest first. -/
def newestRows (table : ProcessTable) (limit : ℕ) (partition : String ×ₗ String) :
    List (ProcessRowKey × ProcessRow) :=
  (sortBy (fun row => row.1.rowOrder)
    (table.entries.filter (fun row => row.1.partition = partition))).rtake limit

/-- A restored first observation: a text of sixty-four characters at most. -/
def checkedFirstSeen (firstSeenAt : Option String) : Option String :=
  firstSeenAt.filter (fun text => 0 < text.length ∧ text.length ≤ 64)

/-- A restored transition with its device. A marker whose device cannot be one is skipped. -/
def decodeProcessRow (row : ProcessRowKey × ProcessRow) :
    Option (DeviceKey × GpuProcessTransition) :=
  let (key, row) := row
  let item := fun (gpuId : String) (workload : Option WorkloadDict)
      (firstSeenAt : Option String) (visible : Bool) =>
    ({ observedAt := key.observedAt
       gpuId := gpuId
       index := row.gpuIndex
       event := key.event
       pid := key.pid
       name := key.name
       usedMemoryMib := row.usedMemoryMib
       workload := workload
       visible := visible
       firstSeenAt := checkedFirstSeen firstSeenAt } : GpuProcessTransition)
  if key.host = internalUsageHost then
    match row.workload with
    | some (.marker host gpuId workload firstSeenAt) =>
      if 0 < host.length ∧ host.length ≤ 253 ∧ '\x00' ∉ host.toList
          ∧ 0 < gpuId.length ∧ gpuId.length ≤ 512 then
        some ((host, gpuId), item gpuId workload firstSeenAt false)
      else none
    | _ => none
  else
    match row.workload with
    | some (.fields fields) =>
      let workload := fields.erase firstSeenKey
      some ((key.host, key.gpuId),
        item key.gpuId (if workload.entries.isEmpty then none else some workload)
          (fields.get? firstSeenKey).join true)
    | _ => some ((key.host, key.gpuId), item key.gpuId none none true)

/-- The restored transitions of a device, in the order of their rows. -/
def decodeProcessRows (table : ProcessTable) (limit : ℕ) (device : DeviceKey) :
    List GpuProcessTransition :=
  ((partitionKeys table).flatMap (newestRows table limit)).filterMap (fun row =>
    match decodeProcessRow row with
    | some (owner, event) => if owner = device then some event else none
    | none => none)

/-- What the transitions of one process at one time share with those of the given kind. -/
def sameIdentity (event other : GpuProcessTransition) (kind : ProcessEvent) : Bool :=
  other.observedAt = event.observedAt && other.processKey = event.processKey
    && other.event = kind

/-- The start time of the workload of the last transition with the identity of an event. -/
def startedAtOf (items : List GpuProcessTransition) (event : GpuProcessTransition)
    (kind : ProcessEvent) : Option String :=
  (items.filter (sameIdentity event · kind)).getLast?.bind
    (fun other => workloadText other.workload "started_at")

/-- Whether two start times show a reused PID. -/
def showsReuse (own twin : Option String) : Bool :=
  match own, twin with
  | some own, some twin => own ≠ twin
  | _, _ => false

/-- The place of a transition among those of its process at its time. -/
def emissionRank (items : List GpuProcessTransition) (event : GpuProcessTransition) : Bool :=
  let stopped := decide (event.event = .stopped)
  let twin := startedAtOf items event (if stopped then .started else .stopped)
  stopped != showsReuse (workloadText event.workload "started_at") twin

/-- The key by which the transitions of a device are sorted. -/
def emissionKey (items : List GpuProcessTransition) (event : GpuProcessTransition) :
    String ×ₗ ℕ ×ₗ String ×ₗ Bool :=
  toLex (event.observedAt, toLex (event.pid, toLex (event.name, emissionRank items event)))

/-- Orders the transitions of a device as they were emitted. -/
def emissionOrder (items : List GpuProcessTransition) : List GpuProcessTransition :=
  sortBy (emissionKey items) items

/-- The restored timeline of a device. -/
def restoreProcessEvents (table : ProcessTable) (limit : ℕ) (device : DeviceKey) :
    List GpuProcessTransition :=
  (emissionOrder (decodeProcessRows table limit device)).rtake limit

/-! ### A row denotes its transition -/

/-- A new key is appended. -/
theorem Dict.entries_set_of_new {κ ν : Type} [DecidableEq κ] {d : Dict κ ν} {k : κ}
    (h : k ∉ d.keys) (v : ν) : (d.set k v).entries = d.entries ++ [(k, v)] := by
  have hassign : ∀ l : List (κ × ν), k ∉ l.map Prod.fst → Dict.assign k v l = l ++ [(k, v)] := by
    intro l
    induction l with
    | nil => exact fun _ => rfl
    | cons entry rest ih =>
      intro hnew
      rw [List.map_cons, List.mem_cons, not_or] at hnew
      rw [Dict.assign, if_neg (Ne.symm hnew.1), ih hnew.2, List.cons_append]
  exact hassign d.entries h

/-- What a transition must be so that its row keeps it: its workload has a field and does not
use the name of the first observation, and its first observation is a short text. -/
structure GpuProcessTransition.Storable (event : GpuProcessTransition) : Prop where
  fields : ∀ fields, event.workload = some fields →
    fields.entries ≠ [] ∧ firstSeenKey ∉ fields.keys
  seen : checkedFirstSeen event.firstSeenAt = event.firstSeenAt

/-- The names of a device that a marker can hold. -/
structure DeviceKey.Storable (device : DeviceKey) : Prop where
  host : 0 < device.1.length ∧ device.1.length ≤ 253 ∧ '\x00' ∉ device.1.toList
  gpuId : 0 < device.2.length ∧ device.2.length ≤ 512

section
variable {internalUsageGpuKey : String → String → String} {host : String}
  {event : GpuProcessTransition}

/-- A host is not the pseudo-host. -/
theorem ne_internalUsageHost (h : '\x00' ∉ host.toList) : host ≠ internalUsageHost := by
  rintro rfl
  exact h (by decide)

/-- A visible transition is read back from its column. -/
theorem decode_serializeWorkload (h : event.Storable) :
    (match serializeWorkload event with
      | some (.fields fields) =>
        (if (fields.erase firstSeenKey).entries.isEmpty then none
          else some (fields.erase firstSeenKey), (fields.get? firstSeenKey).join)
      | _ => (none, none)) = (event.workload, event.firstSeenAt) := by
  have herase : ∀ fields : WorkloadDict, firstSeenKey ∉ fields.keys →
      fields.erase firstSeenKey = fields := by
    intro fields hnew
    have hall : fields.entries.filter (fun entry => entry.1 ≠ firstSeenKey) = fields.entries :=
      List.filter_eq_self.mpr fun entry hentry => by
        rw [decide_eq_true_eq]
        rintro hkey
        exact hnew (hkey ▸ List.mem_map_of_mem hentry)
    unfold Dict.erase
    congr 1
  have hset : ∀ (fields : WorkloadDict) (text : String), firstSeenKey ∉ fields.keys →
      (fields.set firstSeenKey (some text)).erase firstSeenKey = fields := by
    intro fields text hnew
    have hfiltered : (fields.set firstSeenKey (some text)).entries.filter
        (fun entry => entry.1 ≠ firstSeenKey) = fields.entries := by
      rw [Dict.entries_set_of_new hnew, List.filter_append]
      have hold : fields.entries.filter (fun entry => entry.1 ≠ firstSeenKey) = fields.entries :=
        congrArg Dict.entries (herase fields hnew)
      rw [hold]
      simp
    unfold Dict.erase
    congr 1
  have hisEmpty : ∀ (fields : WorkloadDict) (text : String),
      (fields.set firstSeenKey (some text)).entries.isEmpty = false := by
    intro fields text
    by_contra hempty
    rw [Bool.not_eq_false, List.isEmpty_iff] at hempty
    have hget := Dict.get?_set fields firstSeenKey (some text) firstSeenKey
    rw [if_pos rfl, Dict.get?, hempty] at hget
    simp [Dict.lookup] at hget
  unfold serializeWorkload
  cases hworkload : event.workload with
  | none =>
    cases hseen : event.firstSeenAt with
    | none => rfl
    | some text =>
      have hnew : firstSeenKey ∉ (∅ : WorkloadDict).keys := fun hmem => by
        simp [Dict.mem_keys] at hmem
      simp only [Option.getD_none, hisEmpty, Bool.false_eq_true, if_false, hset ∅ text hnew,
        Dict.get?_set, if_true, Option.join_some]
      rfl
  | some fields =>
    obtain ⟨hnonempty, hnew⟩ := h.fields fields hworkload
    have hfull : fields.entries.isEmpty = false := List.isEmpty_eq_false_iff.mpr hnonempty
    cases hseen : event.firstSeenAt with
    | none =>
      have hnone : fields.get? firstSeenKey = none :=
        (Dict.get?_eq_none_iff _ _).mpr hnew
      simp [hfull, herase fields hnew, hnone]
    | some text =>
      simp [hisEmpty, hset fields text hnew, hfull]

/-- The row of a transition denotes it. -/
theorem decodeProcessRow_processRow (h : event.Storable)
    (hdevice : DeviceKey.Storable (host, event.gpuId)) :
    decodeProcessRow (processRow internalUsageGpuKey host event)
      = some ((host, event.gpuId), event) := by
  have hhost := ne_internalUsageHost hdevice.host.2.2
  have hseen := h.seen
  cases hvisible : event.visible with
  | true =>
    have hcolumn := decode_serializeWorkload h
    unfold processRow decodeProcessRow
    simp only [hvisible, if_true, hhost, if_false]
    cases event with
    | mk observedAt gpuId index kind pid name memory workload visible firstSeenAt =>
      dsimp only at hvisible hseen ⊢
      subst hvisible
      revert hcolumn
      cases serializeWorkload _ with
      | none =>
        intro hcolumn
        simp only [Prod.mk.injEq] at hcolumn
        simp [← hcolumn.1, ← hcolumn.2, checkedFirstSeen]
      | some column =>
        cases column with
        | fields fields =>
          intro hcolumn
          simp only [Prod.mk.injEq] at hcolumn
          dsimp only
          rw [hcolumn.1, hcolumn.2, hseen]
        | marker _ _ _ _ =>
          intro hcolumn
          simp only [Prod.mk.injEq] at hcolumn
          simp [← hcolumn.1, ← hcolumn.2, checkedFirstSeen]
  | false =>
    unfold processRow decodeProcessRow
    simp only [hvisible, Bool.false_eq_true, if_false, if_true]
    rw [if_pos ⟨hdevice.host.1, hdevice.host.2.1, hdevice.host.2.2, hdevice.gpuId.1,
      hdevice.gpuId.2⟩, hseen]
    cases event with
    | mk observedAt gpuId index kind pid name memory workload visible firstSeenAt =>
      dsimp only at hvisible
      rw [hvisible]

/-! ### The table of one device -/

variable {gpuId : String} {table : ProcessTable}

/-- Every row is the row of a transition of the device. -/
def Holds (internalUsageGpuKey : String → String → String) (host gpuId : String)
    (table : ProcessTable) : Prop :=
  ∀ row ∈ table.entries, ∃ event : GpuProcessTransition, event.Storable ∧ event.gpuId = gpuId
    ∧ row = processRow internalUsageGpuKey host event

/-- A row is inserted at the end, unless its key is taken. -/
theorem entries_insertOrIgnore (row : ProcessRowKey × ProcessRow) :
    (insertOrIgnore table row).entries
      = if row.1 ∈ table.keys then table.entries else table.entries ++ [row] := by
  unfold insertOrIgnore
  by_cases htaken : row.1 ∈ table.keys
  · have hcontains : table.contains row.1 = true := by
      rw [Dict.contains_eq]
      exact (Dict.mem_keys _ _).mp htaken
    rw [if_pos hcontains, if_pos htaken]
  · have hcontains : ¬ table.contains row.1 = true := by
      rw [Dict.contains_eq]
      exact fun hsome => htaken ((Dict.mem_keys _ _).mpr hsome)
    rw [if_neg hcontains, if_neg htaken, Dict.entries_set_of_new htaken]

/-- A write keeps the table one of the device. -/
theorem Holds.write (h : Holds internalUsageGpuKey host gpuId table)
    {events : List GpuProcessTransition}
    (hevents : ∀ event ∈ events, event.Storable ∧ event.gpuId = gpuId) :
    Holds internalUsageGpuKey host gpuId
      (writeProcessEvents internalUsageGpuKey host table events) := by
  have hfold : ∀ (rows : List (ProcessRowKey × ProcessRow)) (start : ProcessTable),
      Holds internalUsageGpuKey host gpuId start →
      (∀ row ∈ rows, ∃ event : GpuProcessTransition, event.Storable ∧ event.gpuId = gpuId
        ∧ row = processRow internalUsageGpuKey host event) →
      Holds internalUsageGpuKey host gpuId (rows.foldl insertOrIgnore start) := by
    intro rows
    induction rows with
    | nil => exact fun _ hstart _ => hstart
    | cons first rest ih =>
      intro start hstart hrows
      refine ih _ ?_ (fun row hmem => hrows row (List.mem_cons_of_mem _ hmem))
      intro row hmem
      rw [entries_insertOrIgnore] at hmem
      split at hmem
      · exact hstart row hmem
      · rcases List.mem_append.mp hmem with hmem | hmem
        · exact hstart row hmem
        · rw [List.mem_singleton.mp hmem]
          exact hrows first List.mem_cons_self
  refine hfold _ table h ?_
  intro row hmem
  obtain ⟨event, hevent, rfl⟩ := List.mem_map.mp hmem
  have hin : event ∈ events := by
    rcases List.mem_append.mp hevent with hevent | hevent
    · exact (List.mem_filter.mp hevent).1
    · exact (List.mem_filter.mp hevent).1
  exact ⟨event, (hevents event hin).1, (hevents event hin).2, rfl⟩

/-- Rows with new keys are all inserted. -/
theorem entries_insertAll (rows : List (ProcessRowKey × ProcessRow))
    (h : ((table.entries ++ rows).map Prod.fst).Nodup) :
    (rows.foldl insertOrIgnore table).entries = table.entries ++ rows := by
  induction rows generalizing table with
  | nil => simp
  | cons first rest ih =>
    have hnew : first.1 ∉ table.keys := by
      rw [List.map_append, List.map_cons, List.nodup_append] at h
      intro htaken
      exact h.2.2 _ htaken _ List.mem_cons_self rfl
    have hentries : (insertOrIgnore table first).entries = table.entries ++ [first] := by
      rw [entries_insertOrIgnore, if_neg hnew]
    rw [List.foldl_cons, ih (by rw [hentries, List.append_assoc]; exact h), hentries,
      List.append_assoc]
    rfl

/-- The transitions of several samples are all written, if no two have one row key. -/
theorem entries_writeAll (batches : List (List GpuProcessTransition))
    (h : ((table.entries ++ batches.flatten.map (processRow internalUsageGpuKey host)).map
      Prod.fst).Nodup) :
    (batches.foldl (writeProcessEvents internalUsageGpuKey host) table).entries.Perm
      (table.entries ++ batches.flatten.map (processRow internalUsageGpuKey host)) := by
  induction batches generalizing table with
  | nil => simp
  | cons events rest ih =>
    have hsplit : ((events.filter (·.visible) ++ events.filter (!·.visible)).map
        (processRow internalUsageGpuKey host)).Perm
        (events.map (processRow internalUsageGpuKey host)) :=
      (List.filter_append_perm (·.visible) events).map _
    have hall : ((table.entries ++ events.map (processRow internalUsageGpuKey host)
        ++ rest.flatten.map (processRow internalUsageGpuKey host)).map Prod.fst).Nodup := by
      rw [List.append_assoc, ← List.map_append, ← List.flatten_cons]
      exact h
    have hfirst : (writeProcessEvents internalUsageGpuKey host table events).entries
        = table.entries ++ (events.filter (·.visible) ++ events.filter (!·.visible)).map
          (processRow internalUsageGpuKey host) := by
      refine entries_insertAll _ ?_
      have hprefix := hall.sublist ((List.sublist_append_left _ _).map Prod.fst)
      exact (((hsplit.append_left table.entries).map Prod.fst).nodup_iff).mpr hprefix
    have hperm : (writeProcessEvents internalUsageGpuKey host table events).entries.Perm
        (table.entries ++ events.map (processRow internalUsageGpuKey host)) := by
      rw [hfirst]
      exact hsplit.append_left table.entries
    have hrest := @ih (writeProcessEvents internalUsageGpuKey host table events)
      ((((hperm.append_right _).map Prod.fst).nodup_iff).mpr hall)
    rw [List.foldl_cons, List.flatten_cons, List.map_append, ← List.append_assoc]
    exact hrest.trans (hperm.append_right _)

/-! ### Reading the rows of one device -/

/-- The rows in the order in which a restore reads them. -/
def processRows (table : ProcessTable) (limit : ℕ) : List (ProcessRowKey × ProcessRow) :=
  (partitionKeys table).flatMap (newestRows table limit)

theorem mem_newestRows {limit : ℕ} {partition : String ×ₗ String}
    {row : ProcessRowKey × ProcessRow} (h : row ∈ newestRows table limit partition) :
    row ∈ table.entries ∧ row.1.partition = partition := by
  have hmem := List.drop_subset _ _ h
  rw [mem_sortBy, List.mem_filter, decide_eq_true_eq] at hmem
  exact hmem

theorem mem_of_processRows {limit : ℕ} {row : ProcessRowKey × ProcessRow}
    (h : row ∈ processRows table limit) : row ∈ table.entries := by
  obtain ⟨partition, -, hrow⟩ := List.mem_flatMap.mp h
  exact (mem_newestRows hrow).1

/-- The rows are read partition by partition, and each at most once. -/
theorem pairwise_processRows (table : ProcessTable) (limit : ℕ) :
    (processRows table limit).Pairwise
      (fun a b => a.1 ≠ b.1 ∧ a.1.partition ≤ b.1.partition) := by
  unfold processRows
  rw [List.pairwise_flatMap]
  constructor
  · intro partition _
    have hkeys : (table.entries.filter (fun row => row.1.partition = partition)).Pairwise
        (fun a b => a.1 ≠ b.1) := by
      have hnodup := table.nodup
      rw [List.Nodup, List.pairwise_map] at hnodup
      exact hnodup.sublist List.filter_sublist
    have hsorted := (sortBy_perm (fun row : ProcessRowKey × ProcessRow => row.1.rowOrder)
      (table.entries.filter (fun row => row.1.partition = partition))).symm.pairwise hkeys
      (fun h => Ne.symm h)
    have hkept : (newestRows table limit partition).Pairwise (fun a b => a.1 ≠ b.1) :=
      hsorted.sublist (List.drop_sublist _ _)
    refine hkept.imp_of_mem fun ha hb hne => ⟨hne, ?_⟩
    rw [(mem_newestRows ha).2, (mem_newestRows hb).2]
  · have hordered := pairwise_sortBy id (table.keys.map ProcessRowKey.partition).dedup
    have hdistinct : (partitionKeys table).Nodup :=
      (sortBy_perm id _).nodup_iff.mpr (List.nodup_dedup _)
    refine (hordered.and hdistinct).imp fun {a b} hab x hx y hy => ?_
    have hpartitions : x.1.partition ≠ y.1.partition := by
      rw [(mem_newestRows hx).2, (mem_newestRows hy).2]
      exact hab.2
    refine ⟨fun hkey => hpartitions (by rw [hkey]), ?_⟩
    rw [(mem_newestRows hx).2, (mem_newestRows hy).2]
    exact hab.1

/-- A restore with room for every row reads the whole table. -/
theorem processRows_perm {limit : ℕ} (h : table.entries.length ≤ limit) :
    (processRows table limit).Perm table.entries := by
  have hrows : (processRows table limit).Nodup :=
    (pairwise_processRows table limit).imp fun hab hsame => hab.1 (by rw [hsame])
  have hentries : table.entries.Nodup := List.Nodup.of_map _ table.nodup
  rw [List.perm_ext_iff_of_nodup hrows hentries]
  intro row
  refine ⟨mem_of_processRows, fun hrow => ?_⟩
  refine List.mem_flatMap.mpr ⟨row.1.partition, ?_, ?_⟩
  · rw [partitionKeys, mem_sortBy, List.mem_dedup]
    exact List.mem_map_of_mem (List.mem_map_of_mem hrow)
  · unfold newestRows
    have hlength : (table.entries.filter
        (fun other => other.1.partition = row.1.partition)).length ≤ limit :=
      (List.length_filter_le _ _).trans h
    rw [List.rtake, length_sortBy, Nat.sub_eq_zero_of_le hlength, List.drop_zero, mem_sortBy,
      List.mem_filter, decide_eq_true_eq]
    exact ⟨hrow, rfl⟩

end

end Mocop
