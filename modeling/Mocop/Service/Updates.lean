import Mocop.Lib.Dict
import Mocop.Lib.Json
import Mocop.Lib.Runs
import Mocop.Lib.Text

/-!
# `Mocop.Service.Updates`: the update manager

The manager polls the latest release and installs it on request. A request that is accepted
starts a worker, which fetches the release again, looks up the wheel and `SHA256SUMS` in it,
compares the digests, installs the wheel from a temporary directory, asks the installed package
for its version, and restarts the service. Poller, request handler and workers share a record
under a lock; here a step is one section under the lock, or one answer of the outside.

A step also writes what the worker did into a journal, which no step reads.
-/

set_option autoImplicit false

namespace Mocop.Updates

/-! ### Releases -/

/-- A version. -/
structure Version where
  major : ℕ
  minor : ℕ
  patch : ℕ
  deriving DecidableEq, Repr

namespace Version

/-- `".".join(map(str, version))` -/
def text (version : Version) : String :=
  toString version.major ++ "." ++ toString version.minor ++ "." ++ toString version.patch

/-- `version > other` -/
def newer (version other : Version) : Bool :=
  other.major < version.major || (other.major == version.major
    && (other.minor < version.minor || (other.minor == version.minor
      && other.patch < version.patch)))

end Version

/-- What Python knows about texts and digests. -/
structure Platform where
  /-- the value of a character that `\d` matches -/
  digit : Char → Option ℕ
  /-- `text.lower()` -/
  lower : String → String
  /-- `hashlib.sha256(payload).hexdigest()` -/
  sha256 : List UInt8 → String

/-- `int(digits)`, for at most 4300 digits -/
def intOfDigits (digits : List ℕ) : Except String ℕ :=
  if 4300 < digits.length then
    .error ("Exceeds the limit (4300 digits) for integer string conversion: value has "
      ++ toString digits.length
      ++ " digits; use sys.set_int_max_str_digits() to increase the limit")
  else .ok (digits.foldl (fun value digit => value * 10 + digit) 0)

/-- The values of a run of digits. -/
def digitRun (platform : Platform) (text : List Char) : Option (List ℕ) :=
  if text = [] then none else text.mapM platform.digit

/-- `parse_release_tag` of a text -/
def parseReleaseTag (platform : Platform) (tag : String) : Except String (Option Version) :=
  match (pyStrip tag).toList with
  | 'v' :: rest =>
    match (rest.splitOn '.').mapM (digitRun platform) with
    | some [major, minor, patch] => do
        return some ⟨← intOfDigits major, ← intOfDigits minor, ← intOfDigits patch⟩
    | _ => .ok none
  | _ => .ok none

/-- A release: its version and the addresses of its assets. -/
structure Release where
  version : Version
  assets : Dict String String

/-- The name of the wheel of a release. -/
def wheelName (version : Version) : String := "mocop-" ++ version.text ++ "-py3-none-any.whl"

/-- What `for asset in value or []` runs over. -/
def assetItems : Json → Except String (List Json)
  | .null | .bool false | .integer 0 => .ok []
  | .bool true => .error "'bool' object is not iterable"
  | .integer _ => .error "'int' object is not iterable"
  | .fraction value => if value = 0 then .ok [] else .error "'float' object is not iterable"
  | .string value => .ok (value.toList.map fun c => .string (String.singleton c))
  | .array items => .ok items
  | .object members => .ok (members.map fun member => .string member.1)

/-- The name and the address of an asset, when both are texts and the address is safe. -/
def assetEntry (asset : Json) : Option (String × String) := do
  let name ← (asset.member "name").bind Json.string?
  let url ← (asset.member "browser_download_url").bind Json.string?
  if "https://".toList.isPrefixOf url.toList then some (name, url) else none

/-- The release in the answer of the repository. -/
def readRelease (platform : Platform) (answer : Json) : Except String Release := do
  let latest ← match (answer.member "tag_name").bind Json.string? with
    | some tag => parseReleaseTag platform tag
    | none => .ok none
  match latest with
  | none => .error "latest release does not carry a v<semver> tag"
  | some version =>
    let items ← assetItems ((answer.member "assets").getD (.array []))
    return ⟨version, Dict.ofList (items.filterMap assetEntry)⟩

/-! ### Digests -/

/-- A character at which `splitlines` ends a line. -/
def isLineEnd (c : Char) : Bool :=
  (10 ≤ c.toNat && c.toNat ≤ 13) || (28 ≤ c.toNat && c.toNat ≤ 30) || c.toNat == 0x85
    || c.toNat == 0x2028 || c.toNat == 0x2029

/-- `text.splitlines()` -/
def splitLines : List Char → List (List Char)
  | [] => []
  | [c] => if isLineEnd c then [[]] else [[c]]
  | c :: d :: rest =>
    if c = '\r' ∧ d = '\n' then [] :: splitLines rest
    else if isLineEnd c then [] :: splitLines (d :: rest)
    else match splitLines (d :: rest) with
      | [] => [[c]]
      | line :: lines => (c :: line) :: lines

/-- `line.split()` -/
def splitWords (line : List Char) : List (List Char) :=
  (line.splitOnP isPySpace).filter (· ≠ [])

/-- The digest that a line lists for a file. -/
def lineDigest (platform : Platform) (name : String) (line : List Char) : Option String :=
  match splitWords line with
  | [digest, file] =>
    if String.ofList (file.dropWhile (· = '*')) = name then
      some (platform.lower (String.ofList digest))
    else none
  | _ => none

/-- `re.fullmatch(r"[0-9a-f]{64}", digest)` -/
def isDigest (digest : String) : Bool :=
  digest.length == 64 && digest.toList.all fun c => c.isDigit || ('a' ≤ c && c ≤ 'f')

/-- The digest that the sums list for a file: that of the last line which names it. -/
def listedDigest (platform : Platform) (name sums : String) : Option String :=
  (((splitLines sums.toList).filterMap (lineDigest platform name)).getLast?).filter isDigest

/-! ### The manager -/

/-- The policy, and what the manager is made with. -/
structure Setup where
  platform : Platform
  mode : String
  /-- whether the service is supervised and can be restarted -/
  canRestart : Bool
  current : Option Version

/-- `manager._state` -/
inductive UpdateState where
  | idle
  | updating
  | failed
  | restarting
  deriving DecidableEq, Repr

/-- How a worker leaves the temporary directory: with a verified package, after it has reported a
failure, or with an exception that it has yet to report. -/
inductive Leaving where
  | verified
  | reported
  | raising (error : String)
  deriving DecidableEq

/-- What a worker does next. -/
inductive Stage where
  | refreshing
  | choosing (release : Release)
  | fetchingSums (release : Release) (wheelUrl sumsUrl : String)
  | fetchingWheel (release : Release) (wheelUrl sumsUrl sums expected : String)
  | announcing (release : Release) (wheel : List UInt8)
  | preparing (release : Release) (wheel : List UInt8)
  | probingPip (release : Release) (wheel : List UInt8)
  | findingUv (release : Release) (wheel : List UInt8)
  | installing (release : Release) (wheel : List UInt8) (tool : String)
  | verifying (release : Release)
  | leaving (release : Release) (how : Leaving)
  | announcingRestart (release : Release)
  | restarting (release : Release)
  | done

/-- What a worker does, in the journal. -/
inductive Entry where
  | started (worker : ℕ)
  | released (worker : ℕ) (release : Release)
  | fetchedSums (worker : ℕ) (url sums : String)
  | fetchedWheel (worker : ℕ) (url : String) (wheel : List UInt8)
  | install (worker : ℕ) (wheel : List UInt8)
  | installed (worker : ℕ)
  | reported (worker : ℕ) (output : String)
  | reached (worker : ℕ)
  | restart (worker : ℕ)
  | restartRaised (worker : ℕ)

/-- The manager, its workers and the journal. -/
structure Manager where
  latest : Option Version := none
  assets : Dict String String := Dict.empty
  checkedAt : Option String := none
  state : UpdateState := .idle
  detail : Option String := none
  workers : List Stage := []
  journal : List Entry := []

variable (setup : Setup)

/-- `_update_available_locked` -/
def Manager.available (manager : Manager) : Bool :=
  match manager.latest, setup.current with
  | some latest, some current => latest.newer current
  | _, _ => false

/-- The section of `_refresh_release` under the lock. -/
def Manager.publish (manager : Manager) (release : Release) (now : String) : Manager :=
  let published :=
    { manager with latest := some release.version, assets := release.assets, checkedAt := some now }
  -- A newer release supersedes a failed attempt at an older one.
  if published.state = .failed ∧ published.available setup then
    { published with state := .idle, detail := none }
  else published

/-- `check_now`, with the answer of the repository. -/
def Manager.checkNow (manager : Manager) (answer : Except String Json) (now : String) : Manager :=
  match answer.bind (readRelease setup.platform) with
  | .ok release => manager.publish setup release now
  | .error error =>
    let checked := { manager with checkedAt := some now }
    if checked.state = .idle then
      { checked with detail := some ("release check failed: " ++ error) }
    else checked

/-- `_fail` -/
def Manager.fail (manager : Manager) (message : String) : Manager :=
  { manager with
    state := .failed
    detail := some (message ++ "; recover manually with: uv tool install --force "
      ++ "--from git+https://github.com/ChangWinde/mocop.git@<tag> mocop") }

/-- `apply`, with its answer. -/
def Manager.apply (manager : Manager) : (Bool × String) × Manager :=
  if setup.mode ≠ "self-update" then ((false, "self-update is not enabled"), manager)
  else if setup.canRestart = false then
    ((false, "self-update requires the managed service"), manager)
  else if manager.state = .updating then ((false, "an update is already in progress"), manager)
  else if manager.available setup = false then
    ((false, "no newer release is available"), manager)
  else
    ((true, "update started"),
      { manager with
        state := .updating
        detail := some "downloading"
        workers := manager.workers ++ [.refreshing]
        journal := manager.journal ++ [.started manager.workers.length] })

/-! ### The worker -/

/-- The result of a finished process. -/
structure Completed where
  returncode : ℤ
  stdout : String
  stderr : String

/-- An answer of the outside to a worker. -/
inductive Answer where
  | none
  | release (answer : Except String Json) (now : String)
  | text (answer : Except String String)
  | payload (answer : Except String (List UInt8))
  /-- the temporary directory: not made, made without the file, or made with it -/
  | directory (made : Except String (Except String Unit))
  | process (answer : Except String Completed)
  | tool (answer : Except String (Option String))
  | effect (answer : Except String Unit)

/-- What a step of a worker does to the record: its next stage, the change of the shared part and
the entries of the journal. -/
structure Move where
  stage : Stage
  change : Manager → Manager := id
  entries : List Entry := []

/-- A worker that reports a failure and ends. -/
def Move.failed (message : String) : Move := { stage := .done, change := (·.fail message) }

/-- A worker that ends with an exception. -/
def Move.raised (error : String) : Move := .failed ("update failed: " ++ error)

/-- A worker that leaves the temporary directory with an exception. -/
def Move.escape (release : Release) (error : String) : Move :=
  { stage := .leaving release (.raising error) }

/-- A worker that has reported a failure and leaves the temporary directory. -/
def Move.giveUp (release : Release) (message : String) : Move :=
  { stage := .leaving release .reported, change := (·.fail message) }

/-- `stderr.strip()[-300:]` -/
def errorTail (stderr : String) : String :=
  let stripped := (pyStrip stderr).toList
  String.ofList (stripped.drop (stripped.length - 300))

/-- The release that was fetched, compared with the current version. -/
def choose (release : Release) : Move :=
  match setup.current with
  | none => .failed "release state changed before download"
  | some current =>
    if release.version.newer current = false then
      .failed "release state changed before download"
    else
      match release.assets.get? (wheelName release.version),
        release.assets.get? "SHA256SUMS" with
      | some wheelUrl, some sumsUrl => { stage := .fetchingSums release wheelUrl sumsUrl }
      | _, _ => .failed "the latest release does not ship a verifiable wheel"

/-- One step of a worker: `_apply_worker`, `_install` and `_verify_installed` between two answers
of the outside. -/
def advance (worker : ℕ) : Stage → Answer → Option Move
  | .refreshing, .release answer now =>
    match answer.bind (readRelease setup.platform) with
    | .ok release =>
      some { stage := .choosing release
             change := (·.publish setup release now)
             entries := [.released worker release] }
    | .error error => some (.raised error)
  | .choosing release, .none => some (choose setup release)
  | .fetchingSums release wheelUrl sumsUrl, .text answer =>
    match answer with
    | .error error => some (.raised error)
    | .ok sums =>
      match listedDigest setup.platform (wheelName release.version) sums with
      | none => some (.failed "SHA256SUMS does not name the release wheel")
      | some expected =>
        some { stage := .fetchingWheel release wheelUrl sumsUrl sums expected
               entries := [.fetchedSums worker sumsUrl sums] }
  | .fetchingWheel release wheelUrl _ _ expected, .payload answer =>
    match answer with
    | .error error => some (.raised error)
    | .ok wheel =>
      if setup.platform.sha256 wheel ≠ expected then
        some (.failed "wheel digest does not match SHA256SUMS")
      else
        some { stage := .announcing release wheel
               entries := [.fetchedWheel worker wheelUrl wheel] }
  | .announcing release wheel, .none =>
    some { stage := .preparing release wheel
           change := fun manager => { manager with detail := some "installing" } }
  | .preparing release wheel, .directory made =>
    match made with
    | .error error => some (.raised error)
    | .ok (.error error) => some (.escape release error)
    | .ok (.ok _) => some { stage := .probingPip release wheel }
  | .probingPip release wheel, .process answer =>
    match answer with
    | .error error => some (.escape release error)
    | .ok probe =>
      some { stage :=
        if probe.returncode = 0 then .installing release wheel "pip install"
        else .findingUv release wheel }
  | .findingUv release wheel, .tool answer =>
    match answer with
    | .error error => some (.escape release error)
    | .ok none => some (.giveUp release "neither pip nor uv is available to install the wheel")
    | .ok (some _) => some { stage := .installing release wheel "uv tool install" }
  | .installing release wheel tool, .process answer =>
    match answer with
    | .error error =>
      some { Move.escape release error with entries := [.install worker wheel] }
    | .ok result =>
      if result.returncode ≠ 0 then
        some { Move.giveUp release (tool ++ " failed: " ++ errorTail result.stderr) with
               entries := [.install worker wheel] }
      else
        some { stage := .verifying release
               entries := [.install worker wheel, .installed worker] }
  | .verifying release, .process answer =>
    match answer with
    | .error error => some (.escape release error)
    | .ok probe =>
      if probe.returncode = 0 ∧ pyStrip probe.stdout = release.version.text then
        some { stage := .leaving release .verified
               entries := [.reported worker probe.stdout] }
      else
        some (.giveUp release "installed environment does not report the new version")
  | .leaving release how, .effect answer =>
    -- An exception of the removal takes the place of the old one.
    match answer, how with
    | .error error, _ => some (.raised error)
    | .ok _, .verified => some { stage := .announcingRestart release }
    | .ok _, .reported => some { stage := .done }
    | .ok _, .raising error => some (.raised error)
  | .announcingRestart release, .none =>
    some { stage := .restarting release
           change := fun manager =>
             { manager with
               state := .restarting
               detail := some ("restarting into " ++ release.version.text) }
           entries := [.reached worker] }
  | .restarting _, .effect answer =>
    match answer with
    | .ok _ => some { stage := .done, entries := [.restart worker] }
    | .error error =>
      some { Move.raised error with entries := [.restart worker, .restartRaised worker] }
  | _, _ => none

/-- What a step of a worker makes of the record. -/
def Manager.perform (manager : Manager) (worker : ℕ) (move : Move) : Manager :=
  { move.change manager with
    workers := manager.workers.set worker move.stage
    journal := manager.journal ++ move.entries }

/-- What happens to the manager. -/
inductive Event where
  | poll (answer : Except String Json) (now : String)
  | request
  | work (worker : ℕ) (answer : Answer)

/-- One event. -/
def step (manager : Manager) : Event → Option Manager
  | .poll answer now => some (manager.checkNow setup answer now)
  | .request => some (manager.apply setup).2
  | .work worker answer => do
      let stage ← manager.workers[worker]?
      let move ← advance setup worker stage answer
      return manager.perform worker move

end Mocop.Updates
