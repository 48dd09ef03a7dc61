import Mocop.Lib.BoundedHeap
import Mocop.Reports.Occupancy
import Mathlib.Data.List.Infix

/-!
# `Mocop.Dashboard.ProcessSearch`: the bounded process search

The search walks the processes of all available devices, counts each match, and retains the best
`maxResults` of them in a bounded max-heap. At the end it sorts what it retained.

`search_is_full_sort` compares it with the sort of all matches. The walk takes the matching records
in their order (`took_walk`), so its heap is the heap of these, and the library's `Keeps` holds of
it after every insertion.
-/

set_option autoImplicit false

namespace Mocop.ProcessSearch

open BoundedHeap

/-! ### Texts -/

/-- What the search is created with. `fold` is `normalize("NFKC").toLowerCase()`, and `clip` cuts a
query to `maxQueryLength` units. -/
structure Config where
  maxResults : ℕ
  positive : 0 < maxResults
  clip : String → String
  fold : String → String
  localeCompare : String → String → Ordering
  workloadLabels : String → Option String
  processName : GpuProcess → String

/-- A host of the snapshot. -/
structure Server where
  host : String
  stale : Bool
  gpus : List GpuMetrics
  deriving DecidableEq

/-- The blanks that `trim` and `\s` know. -/
def isBlank (c : Char) : Bool :=
  let n := c.toNat
  (9 ≤ n && n ≤ 13) || n == 0x20 || n == 0xa0 || n == 0x1680 || (0x2000 ≤ n && n ≤ 0x200a)
    || n == 0x2028 || n == 0x2029 || n == 0x202f || n == 0x205f || n == 0x3000 || n == 0xfeff

/-- The words of a text. -/
def wordsOf (text : String) : List String :=
  ((text.toList.splitOnP isBlank).filter (· ≠ [])).map String.ofList

/-- Whether a text has another in it. -/
def includes (text part : String) : Bool := decide (part.toList <:+: text.toList)

/-- The separator of the fields of a projection. -/
def separator : String := "\u0000"

variable (config : Config)

/-- `normalizedSearchTerms` -/
def normalizedSearchTerms (query : String) : List String :=
  wordsOf (config.fold (config.clip query))

/-- The text of `normalizedSearchProjection`. -/
def projectionText (values : List (Option String)) : String :=
  config.fold (separator.intercalate ((values.filterMap id).filter (· ≠ "")))

/-- Its `boundaryText`. -/
def boundaryText (text : String) : String := separator ++ text ++ separator

/-- `processSearchProjection` -/
def processSearchText (process : GpuProcess) : String :=
  let workload := process.workload
  let kind := workload.map (·.kind.text)
  projectionText config
    [some (toString process.pid), some process.name, some (config.processName process), kind,
      kind.bind config.workloadLabels, workload.bind (·.workloadId), workload.bind (·.name),
      workload.bind (·.owner), workload.bind (·.queue), workload.bind (·.namespaceName),
      workload.bind (·.command)]

/-- `gpuSearchProjection` -/
def gpuSearchText (server : Server) (gpu : GpuMetrics) : String :=
  projectionText config
    [some server.host, some (toString gpu.index), some gpu.uuid, some gpu.name]

/-- `processMatchesSearch` of a process with its placement. -/
def processMatchesSearch (terms : List String) (server : Server) (gpu : GpuMetrics)
    (process : GpuProcess) : Bool :=
  terms.all fun term =>
    includes (processSearchText config process) term
      || includes (gpuSearchText config server gpu) term

/-! ### The order of the matches -/

/-- A match with its rank. -/
structure Record where
  server : Server
  gpu : GpuMetrics
  process : GpuProcess
  rank : ℕ
  deriving DecidableEq

/-- `processSearchRank` -/
def processSearchRank (terms : List String) (server : Server) (gpu : GpuMetrics)
    (process : GpuProcess) : ℕ :=
  let query := " ".intercalate terms
  let projections := [gpuSearchText config server gpu, processSearchText config process]
  if projections.any fun text => includes (boundaryText text) (separator ++ query ++ separator) then
    0
  else if projections.any fun text => includes (boundaryText text) (separator ++ query) then 1
  else 2

/-- `numeric(process.used_memory_mib, -1)`: the number of `null` is zero. -/
def usedMemory (process : GpuProcess) : ℚ := process.usedMemoryMib.getD 0

/-- `processMemoryRank`: more memory first, then the smaller process ID. -/
def processMemoryRank : GpuProcess → GpuProcess → Ordering :=
  compareLex (fun a b => compareOn usedMemory b a) (compareOn (·.pid))

/-- `compareProcessSearchRecords` -/
def compareProcessSearchRecords : Record → Record → Ordering :=
  compareLex (compareOn (·.rank))
    (compareLex (fun a b => config.localeCompare a.server.host b.server.host)
      (compareLex (compareOn (·.gpu.index))
        (compareLex (fun a b => processMemoryRank a.process b.process)
          fun a b => config.localeCompare a.process.name b.process.name)))

/-- `retainProcessSearchRecord` -/
def retainProcessSearchRecord : Array Record → Record → Array Record :=
  retain (compareProcessSearchRecords config) config.maxResults

/-! ### The walk -/

/-- The counters and the heap of a search. -/
structure Walk where
  matches_ : Array Record := #[]
  total : ℕ := 0
  unavailableGpuCount : ℕ := 0
  staleCount : ℕ := 0

/-- What a search returns. -/
structure SearchResult where
  matches_ : List Record
  total : ℕ
  unavailableGpuCount : ℕ
  staleCount : ℕ
  deriving DecidableEq

/-- One process of a device. -/
def visitProcess (terms : List String) (server : Server) (gpu : GpuMetrics) (walk : Walk)
    (process : GpuProcess) : Walk :=
  if processMatchesSearch config terms server gpu process then
    { walk with
      total := walk.total + 1
      staleCount := if server.stale then walk.staleCount + 1 else walk.staleCount
      matches_ := retainProcessSearchRecord config walk.matches_
        { server := server, gpu := gpu, process := process
          rank := processSearchRank config terms server gpu process } }
  else walk

/-- One device of a host. The rows of an unavailable sample are not searched. -/
def visitGpu (terms : List String) (server : Server) (walk : Walk) (gpu : GpuMetrics) : Walk :=
  if gpu.processesAvailable = false then
    { walk with unavailableGpuCount := walk.unavailableGpuCount + 1 }
  else gpu.processes.foldl (visitProcess config terms server gpu) walk

/-- One host. -/
def visitServer (terms : List String) (host : String) (walk : Walk) (server : Server) : Walk :=
  if host ≠ "all" ∧ server.host ≠ host then walk
  else server.gpus.foldl (visitGpu config terms server) walk

/-- `searchProcessRecords` -/
def searchProcessRecords (snapshot : Option (List Server)) (query host : String) : SearchResult :=
  let terms := normalizedSearchTerms config query
  match snapshot with
  | none => ⟨[], 0, 0, 0⟩
  | some servers =>
    if terms = [] then ⟨[], 0, 0, 0⟩
    else
      let walk := servers.foldl (visitServer config terms host) {}
      { matches_ := sortWith (compareProcessSearchRecords config) walk.matches_.toList
        total := walk.total
        unavailableGpuCount := walk.unavailableGpuCount
        staleCount := walk.staleCount }

/-! ### The matching records -/

/-- All processes of a snapshot with their places. -/
def placedProcesses (servers : List Server) : List (Server × GpuMetrics × GpuProcess) :=
  servers.flatMap fun server => server.gpus.flatMap fun gpu =>
    gpu.processes.map fun process => (server, gpu, process)

/-- Whether a process is a match: on a host of the filter, on a device with a process list, with
each of the terms. -/
def isMatch (terms : List String) (host : String) (placed : Server × GpuMetrics × GpuProcess) :
    Bool :=
  (decide (host = "all") || decide (placed.1.host = host)) && placed.2.1.processesAvailable
    && processMatchesSearch config terms placed.1 placed.2.1 placed.2.2

/-- The record of a process. -/
def recordOf (terms : List String) (placed : Server × GpuMetrics × GpuProcess) : Record :=
  { server := placed.1, gpu := placed.2.1, process := placed.2.2
    rank := processSearchRank config terms placed.1 placed.2.1 placed.2.2 }

/-- All matching records of a query. A blank query and a missing snapshot have none. -/
def matchingRecords (snapshot : Option (List Server)) (query host : String) : List Record :=
  let terms := normalizedSearchTerms config query
  if terms = [] then []
  else ((placedProcesses (snapshot.getD [])).filter (isMatch config terms host)).map
    (recordOf config terms)

/-! ### The walk takes the matching records, in their order -/

variable {config : Config}

/-- From `walk` to `walk'` the records `records` were counted and retained. -/
structure Took (config : Config) (walk walk' : Walk) (records : List Record) : Prop where
  heap : walk'.matches_ = records.foldl (retainProcessSearchRecord config) walk.matches_
  total : walk'.total = walk.total + records.length
  staleCount : walk'.staleCount = walk.staleCount + records.countP (·.server.stale)

theorem took_nil {walk walk' : Walk} (hheap : walk'.matches_ = walk.matches_)
    (htotal : walk'.total = walk.total) (hstale : walk'.staleCount = walk.staleCount) :
    Took config walk walk' [] :=
  ⟨hheap, htotal, hstale⟩

theorem Took.append {walk walk' walk'' : Walk} {records records' : List Record}
    (h : Took config walk walk' records) (h' : Took config walk' walk'' records') :
    Took config walk walk'' (records ++ records') where
  heap := by rw [List.foldl_append, ← h.heap, h'.heap]
  total := by rw [List.length_append, h'.total, h.total, Nat.add_assoc]
  staleCount := by rw [List.countP_append, h'.staleCount, h.staleCount, Nat.add_assoc]

/-- A loop takes what its rounds take. -/
theorem took_foldl {ι : Type} {step : Walk → ι → Walk} {taken : ι → List Record}
    (hstep : ∀ walk i, Took config walk (step walk i) (taken i)) (items : List ι) (walk : Walk) :
    Took config walk (items.foldl step walk) (items.flatMap taken) := by
  induction items generalizing walk with
  | nil => exact took_nil rfl rfl rfl
  | cons i rest ih =>
    rw [List.foldl_cons, List.flatMap_cons]
    exact (hstep walk i).append (ih _)

/-- What is taken of one process. -/
def taken (config : Config) (terms : List String) (host : String)
    (placed : Server × GpuMetrics × GpuProcess) : List Record :=
  if isMatch config terms host placed then [recordOf config terms placed] else []

theorem flatMap_taken (terms : List String) (host : String)
    (placed : List (Server × GpuMetrics × GpuProcess)) :
    placed.flatMap (taken config terms host)
      = (placed.filter (isMatch config terms host)).map (recordOf config terms) := by
  induction placed with
  | nil => rfl
  | cons first rest ih =>
    rw [List.flatMap_cons, ih, taken]
    by_cases hmatch : isMatch config terms host first
    · rw [if_pos hmatch, List.filter_cons_of_pos hmatch]
      rfl
    · rw [if_neg hmatch, List.filter_cons_of_neg hmatch]
      rfl

section
variable {terms : List String} {host : String} {server : Server}

theorem took_visitProcess {gpu : GpuMetrics} (hhost : host = "all" ∨ server.host = host)
    (havailable : gpu.processesAvailable = true) (walk : Walk) (process : GpuProcess) :
    Took config walk (visitProcess config terms server gpu walk process)
      (taken config terms host (server, gpu, process)) := by
  have hmatch : isMatch config terms host (server, gpu, process)
      = processMatchesSearch config terms server gpu process := by
    simp [isMatch, hhost, havailable]
  unfold visitProcess taken
  rw [hmatch]
  by_cases hterms : processMatchesSearch config terms server gpu process
  · rw [if_pos hterms, if_pos hterms]
    refine ⟨rfl, rfl, ?_⟩
    show (if server.stale then walk.staleCount + 1 else walk.staleCount) = _
    cases hstale : server.stale <;> simp [recordOf, hstale]
  · rw [if_neg hterms, if_neg hterms]
    exact took_nil rfl rfl rfl

theorem took_visitGpu (hhost : host = "all" ∨ server.host = host) (walk : Walk)
    (gpu : GpuMetrics) :
    Took config walk (visitGpu config terms server walk gpu)
      (gpu.processes.flatMap fun process => taken config terms host (server, gpu, process)) := by
  unfold visitGpu
  by_cases havailable : gpu.processesAvailable = false
  · -- Nothing of an unavailable sample is a match.
    have hnone : (gpu.processes.flatMap fun process =>
        taken config terms host (server, gpu, process)) = [] := by
      simp [taken, isMatch, havailable]
    rw [if_pos havailable, hnone]
    exact took_nil rfl rfl rfl
  · rw [if_neg havailable]
    exact took_foldl (took_visitProcess hhost (Bool.eq_true_of_not_eq_false havailable)) _ walk

theorem took_visitServer (terms : List String) (host : String) (walk : Walk) (server : Server) :
    Took config walk (visitServer config terms host walk server)
      (server.gpus.flatMap fun gpu => gpu.processes.flatMap fun process =>
        taken config terms host (server, gpu, process)) := by
  unfold visitServer
  by_cases hother : host ≠ "all" ∧ server.host ≠ host
  · -- Nothing of another host is a match.
    have hnone : (server.gpus.flatMap fun gpu => gpu.processes.flatMap fun process =>
        taken config terms host (server, gpu, process)) = [] := by
      simp [taken, isMatch, hother.1, hother.2]
    rw [if_pos hother, hnone]
    exact took_nil rfl rfl rfl
  · have hhost : host = "all" ∨ server.host = host := by
      by_cases hall : host = "all"
      · exact .inl hall
      · exact .inr (by_contra fun hne => hother ⟨hall, hne⟩)
    rw [if_neg hother]
    exact took_foldl (took_visitGpu hhost) _ walk

end

/-- The walk takes the matching records. -/
theorem took_walk (terms : List String) (host : String) (servers : List Server) :
    Took config {} (servers.foldl (visitServer config terms host) {})
      (((placedProcesses servers).filter (isMatch config terms host)).map
        (recordOf config terms)) := by
  have hwalk := took_foldl (@took_visitServer config terms host) servers {}
  rw [← flatMap_taken]
  unfold placedProcesses
  simpa [List.flatMap_assoc, List.flatMap_map, List.map_eq_flatMap] using hwalk

/-! ### The bounded search and the full sort -/

instance [Std.TransCmp config.localeCompare] :
    Std.TransCmp fun a b : Record => config.localeCompare a.server.host b.server.host where
  eq_swap := Std.OrientedCmp.eq_swap
  isLE_trans := Std.TransCmp.isLE_trans

instance [Std.TransCmp config.localeCompare] :
    Std.TransCmp fun a b : Record => config.localeCompare a.process.name b.process.name where
  eq_swap := Std.OrientedCmp.eq_swap
  isLE_trans := Std.TransCmp.isLE_trans

instance : Std.TransCmp processMemoryRank :=
  inferInstanceAs (Std.TransCmp (compareLex (fun a b => compareOn usedMemory b a) _))

instance : Std.TransCmp fun a b : Record => processMemoryRank a.process b.process where
  eq_swap := Std.OrientedCmp.eq_swap
  isLE_trans := Std.TransCmp.isLE_trans

/-- The order of the matches is a total preorder. -/
instance [Std.TransCmp config.localeCompare] :
    Std.TransCmp (compareProcessSearchRecords config) := by
  unfold compareProcessSearchRecords
  infer_instance

/-- What the search promises: the result is the sorted heap of the matching records, and the heap
is a bounded one after every insertion. -/
structure SearchesAll (config : Config) (matching : List Record) (result : SearchResult) :
    Prop where
  /-- At each place stands a record that compares equal with the one of the full sort. -/
  first : List.Forall₂ (fun a b => compareProcessSearchRecords config a b = .eq) result.matches_
    ((sortWith (compareProcessSearchRecords config) matching).take config.maxResults)
  /-- Each match is a matching record, taken once. -/
  subperm : ∃ dropped, (result.matches_ ++ dropped).Perm matching
  total : result.total = matching.length
  staleCount : result.staleCount = matching.countP (·.server.stale)
  /-- The result is the heap of the insertions. -/
  heap : result.matches_ = sortWith (compareProcessSearchRecords config)
    (matching.foldl (retainProcessSearchRecord config) #[]).toList
  /-- After every insertion, the heap is bounded and has a worst record at index zero. -/
  bounded : ∀ seen rest, matching = seen ++ rest →
    (seen.foldl (retainProcessSearchRecord config) #[]).size ≤ config.maxResults
  root : ∀ seen rest, matching = seen ++ rest →
    ∀ (hroot : 0 < (seen.foldl (retainProcessSearchRecord config) #[]).size),
      ∀ record ∈ seen.foldl (retainProcessSearchRecord config) #[],
        (compareProcessSearchRecords config
          (seen.foldl (retainProcessSearchRecord config) #[])[0] record).isGE

/-- The bounded search equals the full sort, up to the order of records that compare equal. -/
theorem search_is_full_sort (config : Config) [Std.TransCmp config.localeCompare]
    (snapshot : Option (List Server)) (query host : String) :
    SearchesAll config (matchingRecords config snapshot query host)
      (searchProcessRecords config snapshot query host) := by
  have hkeeps := fun records : List Record =>
    @keeps_foldl _ (compareProcessSearchRecords config) _ _ config.positive records
  -- The result of a search is the sorted heap of its matching records, with their counts.
  have hresult : ∀ result : SearchResult,
      result.matches_ = sortWith (compareProcessSearchRecords config)
        ((matchingRecords config snapshot query host).foldl
          (retainProcessSearchRecord config) #[]).toList →
      result.total = (matchingRecords config snapshot query host).length →
      result.staleCount
        = (matchingRecords config snapshot query host).countP (·.server.stale) →
      SearchesAll config (matchingRecords config snapshot query host) result := by
    intro result hheap htotal hstale
    refine ⟨?_, ?_, htotal, hstale, hheap, fun seen _ _ => (hkeeps seen).bounded,
      fun seen _ _ hroot record hrecord => (hkeeps seen).isHeap.root_mem hroot hrecord⟩
    · rw [hheap]
      exact (hkeeps _).sorted
    · obtain ⟨dropped, hperm, -⟩ := (hkeeps (matchingRecords config snapshot query host)).best
      refine ⟨dropped, ?_⟩
      rw [hheap]
      exact ((sortWith_perm _).append_right dropped).trans hperm
  have hempty : sortWith (compareProcessSearchRecords config) [] = [] := by simp [sortWith]
  unfold searchProcessRecords
  dsimp only
  cases snapshot with
  | none =>
    have hnone : matchingRecords config none query host = [] := by
      simp [matchingRecords, placedProcesses]
    refine hresult _ ?_ ?_ ?_
    · rw [hnone]
      exact hempty.symm
    · rw [hnone]
      rfl
    · rw [hnone]
      rfl
  | some servers =>
    dsimp only
    by_cases hterms : normalizedSearchTerms config query = []
    · have hnone : matchingRecords config (some servers) query host = [] := by
        simp [matchingRecords, hterms]
      rw [if_pos hterms]
      refine hresult _ ?_ ?_ ?_
      · rw [hnone]
        exact hempty.symm
      · rw [hnone]
        rfl
      · rw [hnone]
        rfl
    · have hmatching : matchingRecords config (some servers) query host
          = ((placedProcesses servers).filter (isMatch config
            (normalizedSearchTerms config query) host)).map
              (recordOf config (normalizedSearchTerms config query)) := by
        rw [matchingRecords, if_neg hterms]
        rfl
      have htook := @took_walk config (normalizedSearchTerms config query) host servers
      rw [← hmatching] at htook
      rw [if_neg hterms]
      refine hresult _ ?_ ?_ ?_
      · rw [← htook.heap]
      · exact htook.total.trans (Nat.zero_add _)
      · exact htook.staleCount.trans (Nat.zero_add _)

/-- Two results, and names as they are. -/
private def twoResults : Config where
  maxResults := 2
  positive := by decide
  clip := id
  fold := id
  localeCompare := compare
  workloadLabels := fun _ => none
  processName := (·.name)

/-- A device of three runs. -/
private def threeRuns : GpuMetrics where
  index := 1
  uuid := "GPU-B"
  name := "H100"
  temperatureC := none
  utilizationGpuPct := none
  memoryTotalMib := none
  memoryUsedMib := none
  powerDrawW := none
  processes := [⟨10, "train", some 10, none, none⟩, ⟨30, "train", some 30, none, none⟩,
    ⟨20, "train", some 20, none, none⟩]

/-- The runs with the most memory are kept. -/
theorem search_is_full_sort_threeRuns :
    (searchProcessRecords twoResults (some [⟨"gpu-b", false, [threeRuns]⟩]) "train" "all").total = 3
      ∧ SearchesAll twoResults
        (matchingRecords twoResults (some [⟨"gpu-b", false, [threeRuns]⟩]) "train" "all")
        (searchProcessRecords twoResults (some [⟨"gpu-b", false, [threeRuns]⟩]) "train" "all") := by
  have hlocale : Std.TransCmp twoResults.localeCompare :=
    inferInstanceAs (Std.TransOrd String)
  have hall := search_is_full_sort twoResults (some [⟨"gpu-b", false, [threeRuns]⟩]) "train" "all"
  exact ⟨hall.total.trans (by decide +kernel), hall⟩

end Mocop.ProcessSearch
