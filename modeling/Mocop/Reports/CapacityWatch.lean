import Mocop.Reports.Capacity

/-!
# `Mocop.Reports.CapacityWatch`: the browser's capacity matcher

The dashboard evaluates every snapshot with its own matcher, a twin of `matchCapacity` in
another language. Its candidates carry the devices themselves, its order is a comparator
that returns a number, and its strings compare by UTF-16 code units.

`matches_agree` is the main result: over the same snapshot the twins list the same
candidates in the same order. Two ingredients carry it: the free devices of a group are
measured (`getD_memoryFree`, `getD_utilization`), so the fallbacks of the browser are never
taken, and the comparator decides `candidateLe` (`compareCandidates_nonpos_iff`).
-/

set_option autoImplicit false

namespace Mocop

namespace CapacityWatch

/-! ### Numbers and strings of the browser -/

/-- The code units of a string. -/
def codeUnits (text : String) : List ℕ :=
  text.toList.flatMap fun c =>
    if c.toNat < 0x10000 then [c.toNat]
    else [0xD800 + (c.toNat - 0x10000) / 0x400, 0xDC00 + (c.toNat - 0x10000) % 0x400]

/-- `first < second` on strings. -/
def stringLess (first second : String) : Bool := decide (codeUnits first < codeUnits second)

/-- `first || second` on numbers. -/
def orElse (first second : ℚ) : ℚ := if first = 0 then second else first

/-- `Number(flag)`. -/
def ofFlag (flag : Bool) : ℚ := if flag then 1 else 0

/-- `Math.min` of at least one value. -/
def mathMin (values : List ℚ) : ℚ := values.tail.foldl min (values.headD 0)

/-- The fallback of a missing number is zero. -/
def numeric (value : Option ℚ) : ℚ := value.getD 0

/-! ### The matcher -/

/-- A candidate of the browser: the free devices as the snapshot has them. -/
structure Candidate where
  host : String
  model : String
  total : ℕ
  available : List GpuView
  satisfies : Bool
  deficit : ℤ
  minimumFreeMib : ℚ
  averageUtilization : ℚ
  cpuUsage : Option ℚ

/-- Whether a condition of the host is about this device. -/
def gpuHasBlocker (gpu : GpuView) (conditions : List ActiveItem) : Bool :=
  let identity := if gpu.uuid ≠ "" then gpu.uuid else toString gpu.index
  let resourcePrefix := "GPU " ++ toString gpu.index
  conditions.any fun condition =>
    if !gpuBlockers.contains condition.category then false
    else (":" ++ identity).toList.isSuffixOf condition.conditionKey.toList
      || condition.resource == resourcePrefix
      || (resourcePrefix ++ " ").toList.isPrefixOf condition.resource.toList

/-- The conditions of each host. -/
def conditionsByHost (active : List ActiveItem) : Dict String (List ActiveItem) :=
  active.foldl (fun groups condition =>
    groups.set condition.host (groups.getD condition.host [] ++ [condition])) ∅

section Match

variable (request : CapacityRequest) (busyPct temperatureC : ℚ)

/-- Whether a device is free for the request. A missing reading compares as false. -/
def isFree (conditions : List ActiveItem) (gpu : GpuView) : Bool :=
  gpu.utilizationGpuPct.isSome
    && decide (numeric gpu.utilizationGpuPct < busyPct)
    && gpu.memoryFreeMib.isSome
    && decide ((request.minVramGib * 1024 : ℚ) ≤ numeric gpu.memoryFreeMib)
    && (gpu.temperatureC.isNone || decide (numeric gpu.temperatureC < temperatureC))
    && !gpuHasBlocker gpu conditions

/-- The devices of a host by model. -/
def modelGroups (gpus : List GpuView) : Dict String (List GpuView) :=
  gpus.foldl (fun groups gpu =>
    let model := if gpu.name ≠ "" then gpu.name else unknownModel
    if request.model ≠ anyModel && model ≠ request.model then groups
    else groups.set model (groups.getD model [] ++ [gpu])) ∅

/-- The candidate of one host and one model. -/
def candidate (server : ServerView) (conditions : List ActiveItem)
    (group : String × List GpuView) : Candidate :=
  let available := group.2.filter (isFree request busyPct temperatureC conditions)
  let freeValues := available.map fun gpu => numeric gpu.memoryFreeMib
  let utilizationValues := available.map fun gpu => numeric gpu.utilizationGpuPct
  { host := server.host
    model := group.1
    total := group.2.length
    available := available
    satisfies := decide (request.gpuCount ≤ available.length)
    deficit := max 0 ((request.gpuCount : ℤ) - available.length)
    minimumFreeMib := if freeValues.length ≠ 0 then mathMin freeValues else 0
    averageUtilization :=
      if utilizationValues.length ≠ 0 then
        utilizationValues.foldl (· + ·) 0 / utilizationValues.length
      else 101
    cpuUsage := server.cpuUsagePct }

/-- The progress over the hosts. -/
structure Scan where
  candidates : List Candidate := []
  excludedMaintenance : ℕ := 0
  excludedHealth : ℕ := 0

/-- Adds the candidates of one host. -/
def scanServer (byHost : Dict String (List ActiveItem)) (scan : Scan) (server : ServerView) :
    Scan :=
  if server.status ≠ "online" || server.stale then scan
  else if server.maintenance.isSome then
    { scan with excludedMaintenance := scan.excludedMaintenance + 1 }
  else
    let conditions := byHost.getD server.host []
    if conditions.any fun condition => hostBlockers.contains condition.category then
      { scan with excludedHealth := scan.excludedHealth + 1 }
    else
      { scan with
        candidates := scan.candidates ++ (modelGroups request server.gpus).entries.map
          (candidate request busyPct temperatureC server conditions) }

/-- The comparator of the candidates: negative when the first one comes first. -/
def compareCandidates (first second : Candidate) : ℚ :=
  orElse (ofFlag second.satisfies - ofFlag first.satisfies)
    (orElse (first.deficit - second.deficit)
      (orElse ((second.available.length : ℚ) - first.available.length)
        (orElse (second.minimumFreeMib - first.minimumFreeMib)
          (orElse (first.averageUtilization - second.averageUtilization)
            (if stringLess first.host second.host then -1
              else if stringLess second.host first.host then 1 else 0)))))

/-- The candidates for a request. The sort is stable, as the language requires. -/
def matches_ (servers : List ServerView) (active : List ActiveItem) : Scan :=
  let scan := servers.foldl
    (scanServer request busyPct temperatureC (conditionsByHost active)) {}
  { scan with
    candidates := scan.candidates.mergeSort fun first second =>
      decide (compareCandidates first second ≤ 0) }

end Match

/-! ### Agreement -/

/-- A candidate of the browser and one of the server show the same. -/
structure Agree (ours : Candidate) (theirs : CapacityCandidate) : Prop where
  host : ours.host = theirs.host
  model : ours.model = theirs.model
  total : ours.total = theirs.total
  available : ours.available.map availableGpu = theirs.available
  satisfies : ours.satisfies = theirs.satisfies
  deficit : ours.deficit = theirs.deficit
  minimumFreeMib : ours.minimumFreeMib = theirs.minimumFreeMib
  averageUtilization : ours.averageUtilization = theirs.averageUtilization
  cpuUsage : ours.cpuUsage = theirs.cpuUsagePct

/-- The form in which the server lists a candidate. -/
def listed (ours : Candidate) : CapacityCandidate where
  host := ours.host
  model := ours.model
  total := ours.total
  available := ours.available.map availableGpu
  satisfies := ours.satisfies
  deficit := ours.deficit.toNat
  minimumFreeMib := ours.minimumFreeMib
  averageUtilization := ours.averageUtilization
  cpuUsagePct := ours.cpuUsage

/-- Every character of the text is an ASCII one. -/
def isAscii (text : String) : Prop := ∀ c ∈ text.toList, c.toNat < 128

instance (text : String) : Decidable (isAscii text) :=
  inferInstanceAs (Decidable (∀ c ∈ text.toList, c.toNat < 128))

/-- An ASCII text has one code unit for each character. -/
theorem codeUnits_of_isAscii {text : String} (h : isAscii text) :
    codeUnits text = text.toList.map Char.toNat := by
  have hunits : ∀ l : List Char, (∀ c ∈ l, c.toNat < 128) →
      (l.flatMap fun c => if c.toNat < 0x10000 then [c.toNat]
        else [0xD800 + (c.toNat - 0x10000) / 0x400, 0xDC00 + (c.toNat - 0x10000) % 0x400])
        = l.map Char.toNat := by
    intro l hl
    induction l with
    | nil => rfl
    | cons c rest ih =>
      have hc : c.toNat < 0x10000 := by
        have := hl c List.mem_cons_self
        omega
      rw [List.flatMap_cons, if_pos hc, ih fun d hd => hl d (List.mem_cons_of_mem c hd)]
      rfl
  exact hunits text.toList h

/-- Characters compare as their codes. -/
theorem map_toNat_lt_iff (l₁ l₂ : List Char) :
    l₁.map Char.toNat < l₂.map Char.toNat ↔ l₁ < l₂ := by
  induction l₁ generalizing l₂ with
  | nil => cases l₂ <;> simp
  | cons c rest ih =>
    cases l₂ with
    | nil => simp
    | cons d tail =>
      have hlt : c.toNat < d.toNat ↔ c < d := Iff.rfl
      have heq : c.toNat = d.toNat ↔ c = d :=
        ⟨fun h => Char.ext (UInt32.toNat_inj.mp h), fun h => h ▸ rfl⟩
      simp only [List.map_cons, List.cons_lt_cons_iff, ih, hlt, heq]

/-- ASCII texts compare in the browser as they do on the server. -/
theorem stringLess_iff {first second : String} (hfirst : isAscii first)
    (hsecond : isAscii second) : stringLess first second = true ↔ first < second := by
  rw [stringLess, decide_eq_true_eq, codeUnits_of_isAscii hfirst, codeUnits_of_isAscii hsecond,
    map_toNat_lt_iff]
  rfl

/-- `first || second` is at most zero. -/
theorem orElse_nonpos_iff (first second : ℚ) :
    orElse first second ≤ 0 ↔ first < 0 ∨ first = 0 ∧ second ≤ 0 := by
  unfold orElse
  split
  · next h => simp [h]
  · next h =>
    simp only [h, false_and, or_false]
    exact ⟨fun hle => lt_of_le_of_ne hle h, le_of_lt⟩

/-- The comparator of the browser decides the order of the server. -/
theorem compareCandidates_nonpos_iff {first second : Candidate} (hfirst : isAscii first.host)
    (hsecond : isAscii second.host) (hdeficit : 0 ≤ first.deficit)
    (hdeficit' : 0 ≤ second.deficit) :
    compareCandidates first second ≤ 0 ↔ candidateLe (listed first) (listed second) = true := by
  have hhosts : (if stringLess first.host second.host then (-1 : ℚ)
      else if stringLess second.host first.host then 1 else 0) ≤ 0
        ↔ first.host ≤ second.host := by
    have hle : first.host ≤ second.host ↔ ¬ stringLess second.host first.host = true := by
      rw [stringLess_iff hsecond hfirst, String.not_lt]
    rw [hle]
    by_cases hlt : stringLess first.host second.host = true
    · have hless := (stringLess_iff hfirst hsecond).mp hlt
      have hnot : ¬ stringLess second.host first.host = true := fun h =>
        String.lt_asymm hless ((stringLess_iff hsecond hfirst).mp h)
      simp [hlt, hnot]
    · by_cases hgt : stringLess second.host first.host = true <;> simp [hlt, hgt]
  have hflags : ofFlag second.satisfies - ofFlag first.satisfies < 0
      ↔ first.satisfies ≠ second.satisfies ∧ first.satisfies = true := by
    cases first.satisfies <;> cases second.satisfies <;> simp [ofFlag]
  have hflags' : ofFlag second.satisfies - ofFlag first.satisfies = 0
      ↔ first.satisfies = second.satisfies := by
    cases first.satisfies <;> cases second.satisfies <;> simp [ofFlag]
  have hdeficits : ((first.deficit : ℚ) - second.deficit < 0)
      ↔ first.deficit.toNat < second.deficit.toNat := by
    rw [sub_neg, Int.cast_lt]
    omega
  have hdeficits' : ((first.deficit : ℚ) - second.deficit = 0)
      ↔ first.deficit.toNat = second.deficit.toNat := by
    rw [sub_eq_zero, Int.cast_inj]
    omega
  simp only [compareCandidates, orElse_nonpos_iff, hhosts, hflags, hflags', hdeficits,
    hdeficits', sub_neg, sub_eq_zero, Nat.cast_lt, Nat.cast_inj]
  unfold candidateLe listed
  dsimp only
  rw [List.length_map, List.length_map]
  split_ifs with hsat hdef havail hfree hutil
  · simp [hsat]
  · simp [not_not.mp hsat, hdef]
  · simp [not_not.mp hsat, not_not.mp hdef, Ne.symm havail]
  · simp [not_not.mp hsat, not_not.mp hdef, not_not.mp havail, Ne.symm hfree]
  · simp [not_not.mp hsat, not_not.mp hdef, not_not.mp havail, not_not.mp hfree, hutil]
  · simp [not_not.mp hsat, not_not.mp hdef, not_not.mp havail, not_not.mp hfree,
      not_not.mp hutil]

/-- The conditions of a host, in the order of the feed. -/
theorem getD_conditionsByHost (active : List ActiveItem) (host : String) :
    (conditionsByHost active).getD host []
      = active.filter fun condition => condition.host = host := by
  have hfold : ∀ (l : List ActiveItem) (groups : Dict String (List ActiveItem)),
      (l.foldl (fun groups condition =>
        groups.set condition.host (groups.getD condition.host [] ++ [condition])) groups).getD
        host [] = groups.getD host [] ++ l.filter fun condition => condition.host = host := by
    intro l
    induction l with
    | nil => simp
    | cons condition rest ih =>
      intro groups
      rw [List.foldl_cons, ih, List.filter_cons]
      by_cases hhost : condition.host = host
      · simp [hhost, Dict.getD_eq]
      · have hne : host ≠ condition.host := fun h => hhost h.symm
        simp [hhost, hne, Dict.getD_eq]
  have h := hfold active ∅
  have hempty : (∅ : Dict String (List ActiveItem)).getD host [] = [] := rfl
  rwa [hempty, List.nil_append] at h

section Match

variable {request : CapacityRequest} {busyPct temperatureC : ℚ}

/-- The twins block the same devices. -/
theorem gpuHasBlocker_eq (gpu : GpuView) (conditions : List ActiveItem) :
    gpuHasBlocker gpu conditions = Mocop.gpuHasBlocker gpu conditions := by
  unfold gpuHasBlocker Mocop.gpuHasBlocker
  simp only [ite_not]
  congr 1
  funext condition
  cases gpuBlockers.contains condition.category <;> simp

/-- The twins free the same devices. -/
theorem isFree_eq (conditions : List ActiveItem) (gpu : GpuView) :
    isFree request busyPct temperatureC conditions gpu
      = isAvailable request busyPct temperatureC conditions gpu := by
  unfold isFree isAvailable
  rw [gpuHasBlocker_eq]
  rw [Bool.eq_iff_iff]
  simp only [Bool.and_eq_true, Bool.or_eq_true, decide_eq_true_eq]
  cases gpu.utilizationGpuPct <;> cases gpu.memoryFreeMib <;> cases gpu.temperatureC <;>
    simp [numeric]

/-- The twins group the devices alike. -/
theorem modelGroups_eq (gpus : List GpuView) :
    modelGroups request gpus = gpuGroups request gpus := by
  unfold modelGroups gpuGroups
  simp

/-- A free device has both readings, so the values with fallback are the readings. -/
theorem map_numeric {reading : GpuView → Option ℚ} {gpus : List GpuView}
    (h : ∀ gpu ∈ gpus, (reading gpu).isSome = true) :
    gpus.map (fun gpu => numeric (reading gpu)) = gpus.filterMap reading := by
  induction gpus with
  | nil => rfl
  | cons gpu rest ih =>
    obtain ⟨value, hvalue⟩ := Option.isSome_iff_exists.mp (h gpu List.mem_cons_self)
    rw [List.map_cons, List.filterMap_cons, hvalue,
      ih fun g hg => h g (List.mem_cons_of_mem gpu hg)]
    rfl

/-- The least of the values, when there is one. -/
theorem mathMin_eq (values : List ℚ) :
    (if values.length ≠ 0 then mathMin values else 0) = minimumOrZero values := by
  cases values <;> rfl

/-- The twins build the same candidate of a group. -/
theorem listed_candidate (server : ServerView) (conditions : List ActiveItem)
    (group : String × List GpuView) :
    listed (candidate request busyPct temperatureC server conditions group)
      = capacityCandidate request busyPct temperatureC server conditions group := by
  have hfree : isFree request busyPct temperatureC conditions
      = isAvailable request busyPct temperatureC conditions := funext (isFree_eq conditions)
  have hmeasured : ∀ gpu ∈ group.2.filter (isAvailable request busyPct temperatureC conditions),
      gpu.memoryFreeMib.isSome = true ∧ gpu.utilizationGpuPct.isSome = true := by
    intro gpu hgpu
    have havailable := (List.mem_filter.mp hgpu).2
    unfold isAvailable at havailable
    cases hmemory : gpu.memoryFreeMib <;> cases hutilization : gpu.utilizationGpuPct <;>
      simp [hmemory, hutilization] at havailable ⊢
  have hmemory := map_numeric fun gpu hgpu => (hmeasured gpu hgpu).1
  have hutilization := map_numeric fun gpu hgpu => (hmeasured gpu hgpu).2
  have hdeficit : (max 0 ((request.gpuCount : ℤ) - (group.2.filter
      (isAvailable request busyPct temperatureC conditions)).length)).toNat
        = request.gpuCount - (group.2.filter
          (isAvailable request busyPct temperatureC conditions)).length := by
    omega
  have haverage : ∀ values : List ℚ,
      (if values.length ≠ 0 then values.foldl (· + ·) 0 / (values.length : ℚ) else 101)
        = if values = [] then noAvailableUtilization else values.sum / values.length := by
    intro values
    cases values with
    | nil => rfl
    | cons first rest => rw [← List.sum_eq_foldl]; rfl
  unfold listed candidate capacityCandidate
  simp only [hfree, hmemory, hutilization, hdeficit, mathMin_eq, haverage]

/-- The number of missing devices is not negative. -/
theorem deficit_nonneg (server : ServerView) (conditions : List ActiveItem)
    (group : String × List GpuView) :
    0 ≤ (candidate request busyPct temperatureC server conditions group).deficit :=
  le_max_left _ _

/-- The twins are at the same point of the snapshot. -/
structure Scan.Matches (ours : Scan) (theirs : CapacityScan) : Prop where
  candidates : ours.candidates.map listed = theirs.candidates
  excludedMaintenance : ours.excludedMaintenance = theirs.excludedMaintenance
  excludedHealth : ours.excludedHealth = theirs.excludedHealth
  sound : ∀ c ∈ ours.candidates, isAscii c.host ∧ 0 ≤ c.deficit

/-- Both twins scan one more host. -/
theorem Scan.Matches.scanServer {ours : Scan} {theirs : CapacityScan} (h : ours.Matches theirs)
    (active : List ActiveItem) {server : ServerView} (hascii : isAscii server.host) :
    (scanServer request busyPct temperatureC (conditionsByHost active) ours server).Matches
      (Mocop.scanServer request busyPct temperatureC active theirs server) := by
  unfold CapacityWatch.scanServer Mocop.scanServer
  rw [getD_conditionsByHost, modelGroups_eq]
  simp only [Bool.or_eq_true, decide_eq_true_eq]
  split
  · exact h
  · split
    · exact ⟨h.candidates, by rw [h.excludedMaintenance], h.excludedHealth, h.sound⟩
    · split
      · exact ⟨h.candidates, h.excludedMaintenance, by rw [h.excludedHealth], h.sound⟩
      · refine ⟨?_, h.excludedMaintenance, h.excludedHealth, fun c hc => ?_⟩
        · rw [List.map_append, List.map_map, h.candidates]
          congr 1
          exact List.map_congr_left fun group _ => listed_candidate server _ group
        · rcases List.mem_append.mp hc with hold | hnew
          · exact h.sound c hold
          · obtain ⟨group, _, rfl⟩ := List.mem_map.mp hnew
            exact ⟨hascii, deficit_nonneg server _ group⟩

/-- Both twins scan all hosts. -/
theorem matches_scan {servers : List ServerView} (active : List ActiveItem)
    (hascii : ∀ server ∈ servers, isAscii server.host) {ours : Scan} {theirs : CapacityScan}
    (h : ours.Matches theirs) :
    (servers.foldl (scanServer request busyPct temperatureC (conditionsByHost active))
      ours).Matches
        (servers.foldl (Mocop.scanServer request busyPct temperatureC active) theirs) := by
  induction servers generalizing ours theirs with
  | nil => exact h
  | cons server rest ih =>
    exact ih (fun s hs => hascii s (List.mem_cons_of_mem server hs))
      (h.scanServer active (hascii server List.mem_cons_self))

/-- A candidate shows what its listed form shows. -/
theorem agree_listed {ours : Candidate} (h : 0 ≤ ours.deficit) : Agree ours (listed ours) :=
  ⟨rfl, rfl, rfl, rfl, rfl, (Int.toNat_of_nonneg h).symm, rfl, rfl, rfl⟩

variable (request busyPct temperatureC)

/-- Over the same snapshot, with ASCII host names, the two matchers list the same candidates
in the same order and exclude as many hosts. -/
theorem matches_agree (servers : List ServerView) (active : List ActiveItem)
    (hascii : ∀ server ∈ servers, isAscii server.host) :
    List.Forall₂ Agree (matches_ request busyPct temperatureC servers active).candidates
        (matchCapacity request busyPct temperatureC servers active).candidates
      ∧ (matches_ request busyPct temperatureC servers active).excludedMaintenance
        = (matchCapacity request busyPct temperatureC servers active).excludedMaintenance
      ∧ (matches_ request busyPct temperatureC servers active).excludedHealth
        = (matchCapacity request busyPct temperatureC servers active).excludedHealth := by
  have hscan := @matches_scan request busyPct temperatureC servers active hascii {} {}
    ⟨rfl, rfl, rfl, by simp⟩
  refine ⟨?_, hscan.excludedMaintenance, hscan.excludedHealth⟩
  -- The two orders agree on the candidates, so the sorts commute with listing them.
  have hsort := List.map_mergeSort (f := listed) (s := candidateLe)
    (r := fun first second => decide (compareCandidates first second ≤ 0))
    (l := (servers.foldl (scanServer request busyPct temperatureC (conditionsByHost active))
      {}).candidates) fun a ha b hb => by
        rw [Bool.eq_iff_iff, decide_eq_true_eq]
        exact compareCandidates_nonpos_iff (hscan.sound a ha).1 (hscan.sound b hb).1
          (hscan.sound a ha).2 (hscan.sound b hb).2
  rw [hscan.candidates] at hsort
  show List.Forall₂ Agree (List.mergeSort _ _) (List.mergeSort _ candidateLe)
  rw [← hsort, List.forall₂_map_right_iff, List.forall₂_same]
  intro c hc
  exact agree_listed (hscan.sound c (List.mem_mergeSort.mp hc)).2

end Match

/-- Two hosts, one with a hot and a free device, the other with a free one. -/
private def twoHosts : List ServerView :=
  [ { host := "rack-b", status := "online", stale := false, maintenance := none,
      cpuUsagePct := some 12,
      gpus := [⟨0, "GPU-0", "H100", some 2, some 80000, some 91⟩,
        ⟨1, "GPU-1", "H100", some 3, some 80000, none⟩] },
    { host := "rack-a", status := "online", stale := false, maintenance := none,
      cpuUsagePct := none, gpus := [⟨0, "", "H100", some 3, some 80000, some 40⟩] } ]

/-- Both matchers list the groups of the two hosts alike. -/
theorem matches_agree_twoHosts :
    (∀ server ∈ twoHosts, isAscii server.host) ∧
      List.Forall₂ Agree (matches_ ⟨1, 40, anyModel⟩ 10 80 twoHosts []).candidates
        (matchCapacity ⟨1, 40, anyModel⟩ 10 80 twoHosts []).candidates := by
  have hascii : ∀ server ∈ twoHosts, isAscii server.host := by
    simp [twoHosts, isAscii]
  exact ⟨hascii, (matches_agree ⟨1, 40, anyModel⟩ 10 80 twoHosts [] hascii).1⟩

end CapacityWatch

end Mocop
