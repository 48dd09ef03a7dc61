import Mathlib.Data.String.Basic
import Mocop.Lib.IpAddresses
import Mocop.Lib.SortedSets
import Mocop.Service.Updates
import Mocop.Topology.Projection
import Mocop.Topology.ProxyCommands

/-!
# `Mocop.Topology.Routes`: the routes that OpenSSH reports

`resolveRoute` reads the route to an alias from the options that `ssh -G` prints. A hop that names
no known alias gets a synthetic one. The planner asks for the routes of the targets in rounds: the
answers of one round arrive in any order, and the known hops they name are asked for in the next
(`Rounds`).

`safeRoutes_of_planned` says that every hop of every resolved route is a safe alias, which the
projection relies on. What the planner's process prints is arbitrary within its limit.
-/

set_option autoImplicit false

namespace Mocop

/-! ### Aliases of hops -/

/-- What Python knows about texts, and the words of a command where it can be split. -/
structure RouteRules where
  lower : String → String
  casefold : String → String
  isDigits : String → Bool
  shlexSplit : String → Option (List String)

/-- The number behind a name, which the first name goes without. -/
def numberedSuffix (index : ℕ) : String := if index = 0 then "" else "-" ++ toString index

/-- The prefix of a synthetic alias. -/
def proxyPrefix : String := "proxy-"

/-- The alias of a hop that names no known one. -/
def syntheticProxyAlias (target : String) (index : ℕ) : String :=
  let suffix := numberedSuffix index
  let available := 253 - proxyPrefix.length - suffix.length
  String.ofList (proxyPrefix.toList ++ (target.toList.take available ++ suffix.toList))

section Routes

variable (rules : RouteRules)

/-- The known aliases by their folded names, without those that share one. -/
def knownAliasIndex (aliases : List String) : Dict String String :=
  let buckets := aliases.foldl (fun buckets name => buckets.set (rules.casefold name)
    (buckets.getD (rules.casefold name) [] ++ [name])) (∅ : Dict String (List String))
  Dict.ofList (buckets.entries.filterMap fun bucket =>
    match bucket.2 with
    | [name] => some (bucket.1, name)
    | _ => none)

/-- The known alias that a destination names. -/
def aliasFromDestination (value : String) (knownAliases : Dict String String) : Option String :=
  let candidate := (pyStrip value).toList
  if candidate.isEmpty || candidate.head? == some '-' then none
  else
    -- What stands before the last `@` is a user.
    let candidate := if '@' ∈ candidate then (candidate.reverse.takeWhile (· ≠ '@')).reverse
      else candidate
    match candidate with
    | '[' :: address =>
      if ']' ∈ address then
        knownAliases.get? (rules.casefold (String.ofList (address.takeWhile (· ≠ ']'))))
      else none
    | _ =>
      let host := candidate.takeWhile (· ≠ ':')
      let hasPort := candidate.count ':' == 1
        && rules.isDigits (String.ofList ((candidate.dropWhile (· ≠ ':')).drop 1))
      knownAliases.get? (rules.casefold (String.ofList (if hasPort then host else candidate)))

/-! ### Routes -/

/-- The route of the option `ProxyJump`. -/
def proxyJumpRoute (target value : String) (knownAliases : Dict String String) : SshRoute :=
  (splitAt ',' value).zipIdx.foldl (fun route hop =>
    let found := aliasFromDestination rules hop.1 knownAliases
    let name := found.getD (syntheticProxyAlias target hop.2)
    { route with
      isOpaque := route.isOpaque || found.isNone
      hops := if name ∈ route.hops ∨ name = target then route.hops else route.hops ++ [name] })
    { kind := "proxyjump" }

/-- The route of the option `ProxyCommand`. -/
def proxyCommandRoute (target value : String) (knownAliases : Dict String String) : SshRoute :=
  let tokens := (rules.shlexSplit value).getD []
  let hops := (proxyCommandDestinations rules.lower tokens).foldl (fun hops destination =>
    match aliasFromDestination rules destination knownAliases with
    | some name => if name = target ∨ name ∈ hops then hops else hops ++ [name]
    | none => hops) []
  if hops.isEmpty then
    { kind := "proxycommand", hops := [syntheticProxyAlias target 0], isOpaque := true }
  else { kind := "proxycommand", hops := hops }

/-- `_SSH_G_MAX_OUTPUT_BYTES` -/
def sshMaxOutputBytes : ℕ := 262144

/-- The options of the routes in the output of `ssh -G`. -/
def resolveSshOptions (output : List Char) : Dict String String :=
  (Updates.splitLines output).foldl (fun options line =>
    let key := rules.lower (pyStrip (String.ofList (line.takeWhile (· ≠ ' '))))
    let value := pyStrip (String.ofList ((line.dropWhile (· ≠ ' ')).drop 1))
    if ' ' ∈ line ∧ key ∈ ["proxycommand", "proxyjump"] then options.set key value else options) ∅

/-- Whether an option is set. -/
def isSetOption (value : String) : Bool := ¬rules.lower value ∈ ["", "none"]

/-- The route to an alias, given the output of `ssh -G` where the client succeeded. -/
def resolveRoute (knownAliases : List String) (name : String) (reply : Option (List Char)) :
    Option SshRoute :=
  reply.map fun output =>
    let options := resolveSshOptions rules output
    let index := knownAliasIndex rules knownAliases
    let proxyJump := pyStrip (options.getD "proxyjump" "")
    let proxyCommand := pyStrip (options.getD "proxycommand" "")
    if isSetOption rules proxyJump then proxyJumpRoute rules name proxyJump index
    else if isSetOption rules proxyCommand then proxyCommandRoute rules name proxyCommand index
    else { kind := "direct" }

/-! ### The planner -/

/-- The progress of the planner. -/
structure RouteRun where
  routes : Dict String SshRoute := ∅
  failures : List String := []
  warnings : List String := []
  pending : List String

/-- Adds the wanted hops to the pending ones. -/
def awaitHops (wanted : String → Bool) (hops pending : List String) : List String :=
  hops.foldl (fun pending hop =>
    if wanted hop && !pending.contains hop then pending ++ [hop] else pending) pending

/-- Takes in one answer. -/
def settleRoute (knownAliases : List String) (localHost : Option String) (run : RouteRun)
    (answer : String × Option SshRoute) : RouteRun :=
  match answer.2 with
  | none => { run with
      failures := run.failures ++ [answer.1]
      warnings := run.warnings ++ [answer.1 ++ ": SSH route could not be resolved"] }
  | some route =>
    let routes := run.routes.set answer.1 route
    { run with
      routes := routes
      warnings := run.warnings
        ++ if route.isOpaque then [answer.1 ++ ": proxy route contains an opaque hop"] else []
      pending := awaitHops (fun hop => hop ∈ knownAliases ∧ routes.contains hop = false
        ∧ hop ∉ run.failures ∧ some hop ≠ localHost) route.hops run.pending }

/-- Takes in the answers of one round, in the order in which they arrive. -/
def settleRound (knownAliases : List String) (localHost : Option String) (run : RouteRun)
    (replies : List (String × Option (List Char))) : RouteRun :=
  (replies.map fun reply => (reply.1, resolveRoute rules knownAliases reply.1 reply.2)).foldl
    (settleRoute knownAliases localHost) { run with pending := [] }

/-- The rounds of the planner with the answers so far: every pending alias is answered once, in any
order. -/
inductive Rounds (knownAliases : List String) (localHost : Option String) (start : RouteRun) :
    List (String × Option (List Char)) → RouteRun → Prop
  | start : Rounds knownAliases localHost start [] start
  | round {log replies : List (String × Option (List Char))} {run : RouteRun} :
      Rounds knownAliases localHost start log run → run.pending ≠ [] →
      (replies.map Prod.fst).Perm run.pending →
      (∀ reply ∈ replies, ∀ output, reply.2 = some output → output.length ≤ sshMaxOutputBytes) →
      Rounds knownAliases localHost start (log ++ replies)
        (settleRound rules knownAliases localHost run replies)

/-- The planner before its first round: the known targets but the local host. -/
def RouteRun.start (knownAliases targets : List String) (localHost : Option String) : RouteRun where
  pending := targets.eraseDups.filter fun name =>
    knownAliases.contains name && !(some name == localHost)

/-- What the planner returns. -/
def RouteRun.resolution (run : RouteRun) (knownAliases : List String) : SshRouteResolution where
  knownAliases := knownAliases
  routes := sortBy Prod.fst run.routes.entries
  warnings := sortedSet run.warnings

/-- A resolution that the planner can return, with the aliases that failed. -/
def Planned (aliases targets : List String) (localHost : Option String)
    (resolution : SshRouteResolution) (failures : List String) : Prop :=
  ∃ log run, Rounds rules (sortedSet aliases) localHost
      (.start (sortedSet aliases) targets localHost) log run
    ∧ run.pending = [] ∧ resolution = run.resolution (sortedSet aliases)
    ∧ failures = sortedSet run.failures

end Routes

/-! ### Safe aliases -/

/-- A digit may start an alias. -/
theorem isAliasStart_of_isDigit {c : Char} (h : c.isDigit = true) : isAliasStart c = true := by
  simp only [Char.isDigit, Bool.and_eq_true, decide_eq_true_eq, ge_iff_le,
    UInt32.le_iff_toNat_le] at h
  simp only [isAliasStart, Bool.or_eq_true, Bool.and_eq_true, decide_eq_true_eq]
  exact .inl (.inl h)

/-- The digits of a number. -/
theorem toList_toString (n : ℕ) : (toString n).toList = Nat.toDigits 10 n := by
  show (Nat.repr n).toList = _
  rw [Nat.repr_eq_ofList_toDigits, String.toList_ofList]

/-- The number behind a name is one of characters of aliases. -/
theorem numberedSuffix_ok {index : ℕ} (hindex : index < 10 ^ 200) :
    (∀ c ∈ (numberedSuffix index).toList, isAliasChar c = true)
      ∧ (numberedSuffix index).length ≤ 201 := by
  have hlength : (Nat.toDigits 10 index).length ≤ 200 :=
    (Nat.length_toDigits_le_iff (by decide) (by decide)).mpr hindex
  unfold numberedSuffix
  split
  · exact ⟨fun c hc => (by cases hc), by decide⟩
  · constructor
    · intro c hc
      rw [String.toList_append, List.mem_append, toList_toString] at hc
      rcases hc with hdash | hdigit
      · rw [List.mem_singleton.mp hdash]
        rfl
      · have hd := Nat.isDigit_of_mem_toDigits (by decide) (by decide) hdigit
        rw [isAliasChar, isAliasStart_of_isDigit hd]
        rfl
    · rw [← String.length_toList, String.toList_append, List.length_append, toList_toString]
      show 1 + (Nat.toDigits 10 index).length ≤ 201
      omega

/-- The characters of a safe alias. -/
theorem isAliasChar_of_isSafeAlias {name : String} (h : isSafeAlias name = true) :
    ∀ c ∈ name.toList, isAliasChar c = true := by
  unfold isSafeAlias at h
  cases hchars : name.toList with
  | nil => exact fun c hc => by cases hc
  | cons first rest =>
    rw [hchars] at h
    simp only [Bool.and_eq_true, List.all_eq_true] at h
    intro c hc
    rcases List.mem_cons.mp hc with rfl | hmem
    · rw [isAliasChar, h.1.1]
      rfl
    · exact h.1.2 c hmem

/-- A name of aliases behind a letter is a safe alias, if it is not too long. -/
theorem isSafeAlias_of_chars {first : Char} {rest : List Char} (hfirst : isAliasStart first = true)
    (hrest : ∀ c ∈ rest, isAliasChar c = true) (hlength : rest.length ≤ 252) :
    isSafeAlias (String.ofList (first :: rest)) = true := by
  unfold isSafeAlias
  rw [String.toList_ofList]
  simp only [Bool.and_eq_true, decide_eq_true_eq, List.all_eq_true]
  exact ⟨⟨hfirst, hrest⟩, hlength⟩

/-- A synthetic alias is safe, unless its number is beyond all bounds. -/
theorem isSafeAlias_syntheticProxyAlias {target : String} (h : isSafeAlias target = true)
    {index : ℕ} (hindex : index < 10 ^ 200) :
    isSafeAlias (syntheticProxyAlias target index) = true := by
  obtain ⟨hchars, hlength⟩ := numberedSuffix_ok hindex
  have hfrontChars : proxyPrefix.toList = 'p' :: "roxy-".toList := by decide
  have hfrontLength : proxyPrefix.length = 6 := by decide
  have hfront : "roxy-".toList.all isAliasChar = true := by decide +kernel
  have htaken := List.length_take_le (253 - 6 - (numberedSuffix index).length) target.toList
  unfold syntheticProxyAlias
  dsimp only
  rw [hfrontChars, hfrontLength, List.cons_append]
  refine isSafeAlias_of_chars (by decide) (fun c hc => ?_) ?_
  · rcases List.mem_append.mp hc with hc | hc
    · exact List.all_eq_true.mp hfront c hc
    · rcases List.mem_append.mp hc with hname | hsuffix
      · exact isAliasChar_of_isSafeAlias h c (List.take_subset _ _ hname)
      · exact hchars c hsuffix
  · have hsuffix : (numberedSuffix index).toList.length = (numberedSuffix index).length :=
      String.length_toList
    have hrest : "roxy-".toList.length = 5 := by decide
    rw [List.length_append, List.length_append, hsuffix, hrest]
    omega

/-! ### The known aliases -/

section Resolved

variable {rules : RouteRules} {aliases : List String}

/-- The index lists known aliases. -/
theorem mem_of_knownAliasIndex {key name : String}
    (h : (knownAliasIndex rules aliases).get? key = some name) : name ∈ aliases := by
  -- Every bucket holds known aliases.
  have hbuckets : ∀ (listed : List String) (buckets : Dict String (List String)),
      (∀ key names, buckets.get? key = some names → ∀ name ∈ names, name ∈ aliases) →
      (∀ name ∈ listed, name ∈ aliases) →
      ∀ key names, (listed.foldl (fun buckets name => buckets.set (rules.casefold name)
          (buckets.getD (rules.casefold name) [] ++ [name])) buckets).get? key = some names →
        ∀ name ∈ names, name ∈ aliases := by
    intro listed
    induction listed with
    | nil => exact fun buckets hbuckets _ => hbuckets
    | cons first rest ih =>
      intro buckets hbuckets hlisted
      refine ih _ (fun key names hnames name hname => ?_) fun name hname =>
        hlisted name (List.mem_cons_of_mem _ hname)
      rw [Dict.get?_set] at hnames
      split at hnames
      · obtain rfl := Option.some.inj hnames
        rcases List.mem_append.mp hname with hold | hlast
        · rw [Dict.getD_eq] at hold
          cases hfound : buckets.get? (rules.casefold first) with
          | none =>
            rw [hfound] at hold
            cases hold
          | some found =>
            rw [hfound] at hold
            exact hbuckets _ found hfound name hold
        · rw [List.mem_singleton.mp hlast]
          exact hlisted first List.mem_cons_self
      · exact hbuckets key names hnames name hname
  have hknown := hbuckets aliases ∅ (fun key names hnames => by cases hnames) fun _ hname => hname
  obtain ⟨bucket, hbucket, hsingle⟩ := List.mem_filterMap.mp
    (Dict.mem_of_get?_ofList h)
  split at hsingle
  · next single hnames =>
    obtain ⟨rfl, rfl⟩ := Prod.mk.inj (Option.some.inj hsingle)
    exact hknown bucket.1 bucket.2 ((Dict.get?_eq_some_iff _ _ _).mpr hbucket) _
      (by rw [hnames]; exact List.mem_singleton.mpr rfl)
  · cases hsingle

/-- A destination names an indexed alias. -/
theorem exists_of_aliasFromDestination {value name : String} {index : Dict String String}
    (h : aliasFromDestination rules value index = some name) :
    ∃ key, index.get? key = some name := by
  unfold aliasFromDestination at h
  dsimp only at h
  split at h
  · cases h
  · split at h
    · split at h
      · exact ⟨_, h⟩
      · cases h
    · exact ⟨_, h⟩

/-- A destination names a known alias. -/
theorem mem_of_aliasFromDestination {value name : String}
    (h : aliasFromDestination rules value (knownAliasIndex rules aliases) = some name) :
    name ∈ aliases := by
  obtain ⟨key, hkey⟩ := exists_of_aliasFromDestination h
  exact mem_of_knownAliasIndex hkey

/-! ### The hops of a route -/

/-- A fold that keeps or appends safe aliases ends with safe ones. -/
theorem safe_foldl {α : Type} {step : List String → α → List String} {items : List α}
    (hstep : ∀ hops, ∀ item ∈ items, step hops item = hops
      ∨ ∃ name, isSafeAlias name = true ∧ step hops item = hops ++ [name])
    {hops : List String} (h : ∀ hop ∈ hops, isSafeAlias hop = true) :
    ∀ hop ∈ items.foldl step hops, isSafeAlias hop = true := by
  induction items generalizing hops with
  | nil => exact h
  | cons item rest ih =>
    refine ih (fun hops item hitem => hstep hops item (List.mem_cons_of_mem _ hitem)) ?_
    rcases hstep hops item List.mem_cons_self with heq | ⟨name, hname, heq⟩
    · rw [heq]
      exact h
    · rw [heq]
      intro hop hhop
      rcases List.mem_append.mp hhop with hold | hlast
      · exact h hop hold
      · rw [List.mem_singleton.mp hlast]
        exact hname

/-- The hops of a route of the option `ProxyJump`. -/
theorem safe_proxyJumpRoute {target value : String} (htarget : isSafeAlias target = true)
    (haliases : ∀ name ∈ aliases, isSafeAlias name = true) (hlength : value.length < 10 ^ 200 - 1) :
    ∀ hop ∈ (proxyJumpRoute rules target value (knownAliasIndex rules aliases)).hops,
      isSafeAlias hop = true := by
  have hhops : ∀ (pieces : List (String × ℕ)) (route : SshRoute),
      (pieces.foldl (fun route hop =>
        let found := aliasFromDestination rules hop.1 (knownAliasIndex rules aliases)
        let name := found.getD (syntheticProxyAlias target hop.2)
        { route with
          isOpaque := route.isOpaque || found.isNone
          hops := if name ∈ route.hops ∨ name = target then route.hops
            else route.hops ++ [name] }) route).hops
        = pieces.foldl (fun hops hop =>
          let name := (aliasFromDestination rules hop.1 (knownAliasIndex rules aliases)).getD
            (syntheticProxyAlias target hop.2)
          if name ∈ hops ∨ name = target then hops else hops ++ [name]) route.hops := by
    intro pieces
    induction pieces with
    | nil => exact fun _ => rfl
    | cons piece rest ih => exact fun route => ih _
  rw [proxyJumpRoute, hhops]
  refine safe_foldl (fun hops piece hpiece => ?_) fun hop hhop => (by cases hhop)
  have hindex : piece.2 < 10 ^ 200 := by
    have hcount := Ip.length_splitOn ',' value.toList
    have hbound := List.count_le_length (a := ',') (l := value.toList)
    have hlt := (List.mem_zipIdx' hpiece).1
    rw [splitAt, List.length_map, hcount] at hlt
    rw [String.length_toList] at hbound
    omega
  dsimp only
  split
  · exact .inl rfl
  · refine .inr ⟨_, ?_, rfl⟩
    cases hfound : aliasFromDestination rules piece.1 (knownAliasIndex rules aliases) with
    | none => exact isSafeAlias_syntheticProxyAlias htarget hindex
    | some name => exact haliases name (mem_of_aliasFromDestination hfound)

/-- The hops of a route of the option `ProxyCommand`. -/
theorem safe_proxyCommandRoute {target value : String} (htarget : isSafeAlias target = true)
    (haliases : ∀ name ∈ aliases, isSafeAlias name = true) :
    ∀ hop ∈ (proxyCommandRoute rules target value (knownAliasIndex rules aliases)).hops,
      isSafeAlias hop = true := by
  unfold proxyCommandRoute
  dsimp only
  split
  · intro hop hhop
    rw [List.mem_singleton.mp hhop]
    exact isSafeAlias_syntheticProxyAlias htarget (Nat.pow_pos (by decide))
  · refine safe_foldl (fun hops destination _ => ?_) fun hop hhop => (by cases hhop)
    split
    · next name hname =>
      split
      · exact .inl rfl
      · exact .inr ⟨name, haliases name (mem_of_aliasFromDestination hname), rfl⟩
    · exact .inl rfl

/-! ### The options of a route -/

/-- A trimmed text is no longer. -/
theorem length_pyStrip_le (value : String) : (pyStrip value).length ≤ value.length := by
  rw [← String.length_toList, ← String.length_toList, pyStrip, String.toList_ofList,
    List.length_reverse]
  have hback := (List.dropWhile_suffix isPySpace
    (l := (value.toList.dropWhile isPySpace).reverse)).length_le
  have hfront := (List.dropWhile_suffix isPySpace (l := value.toList)).length_le
  rw [List.length_reverse] at hback
  exact hback.trans hfront

/-- A line is no longer than its text. -/
theorem length_le_of_mem_splitLines {text line : List Char} (h : line ∈ Updates.splitLines text) :
    line.length ≤ text.length := by
  fun_induction Updates.splitLines text generalizing line with
  | case1 => cases h
  | case2 c hend =>
    rw [List.mem_singleton.mp h]
    exact Nat.zero_le _
  | case3 c hend =>
    rw [List.mem_singleton.mp h]
  | case4 c d rest hend ih =>
    rcases List.mem_cons.mp h with rfl | hmem
    · exact Nat.zero_le _
    · exact (ih hmem).trans (by simp only [List.length_cons]; omega)
  | case5 c d rest hpair hend ih =>
    rcases List.mem_cons.mp h with rfl | hmem
    · exact Nat.zero_le _
    · exact (ih hmem).trans (Nat.le_succ _)
  | case6 c d rest hpair hend hnone ih =>
    rw [List.mem_singleton.mp h]
    exact Nat.succ_le_succ (Nat.zero_le _)
  | case7 c d rest hpair hend first lines hlines ih =>
    rw [hlines] at ih
    rcases List.mem_cons.mp h with rfl | hmem
    · exact Nat.succ_le_succ (ih List.mem_cons_self)
    · exact (ih (List.mem_cons_of_mem _ hmem)).trans (Nat.le_succ _)

/-- An option is no longer than the output. -/
theorem length_resolveSshOptions {output : List Char} {key value : String}
    (h : (resolveSshOptions rules output).get? key = some value) :
    value.length ≤ output.length := by
  have hfold : ∀ (lines : List (List Char)) (options : Dict String String),
      (∀ line ∈ lines, line.length ≤ output.length) →
      (∀ key value, options.get? key = some value → value.length ≤ output.length) →
      ∀ key value, (lines.foldl (fun options line =>
        let key := rules.lower (pyStrip (String.ofList (line.takeWhile (· ≠ ' '))))
        let value := pyStrip (String.ofList ((line.dropWhile (· ≠ ' ')).drop 1))
        if ' ' ∈ line ∧ key ∈ ["proxycommand", "proxyjump"] then options.set key value
        else options) options).get? key = some value → value.length ≤ output.length := by
    intro lines
    induction lines with
    | nil => exact fun _ _ hoptions => hoptions
    | cons line rest ih =>
      intro options hlines hoptions
      refine ih _ (fun other hother => hlines other (List.mem_cons_of_mem _ hother)) ?_
      intro key value hvalue
      dsimp only at hvalue
      split at hvalue
      · rw [Dict.get?_set] at hvalue
        split at hvalue
        · obtain rfl := Option.some.inj hvalue
          refine (length_pyStrip_le _).trans ?_
          rw [← String.length_toList, String.toList_ofList, List.length_drop]
          have hrest := (List.dropWhile_suffix (fun c => decide (c ≠ ' '))
            (l := line)).length_le
          have hline := hlines line List.mem_cons_self
          omega
        · exact hoptions key value hvalue
      · exact hoptions key value hvalue
  exact hfold _ ∅ (fun line hline => length_le_of_mem_splitLines hline)
    (fun key value hvalue => by cases hvalue) key value h

/-- The hops of a resolved route. -/
theorem safe_resolveRoute {name : String} {reply : Option (List Char)} {route : SshRoute}
    (hname : isSafeAlias name = true) (haliases : ∀ name ∈ aliases, isSafeAlias name = true)
    (hreply : ∀ output, reply = some output → output.length ≤ sshMaxOutputBytes)
    (h : resolveRoute rules aliases name reply = some route) :
    ∀ hop ∈ route.hops, isSafeAlias hop = true := by
  obtain ⟨output, houtput, rfl⟩ := Option.map_eq_some_iff.mp h
  dsimp only
  have hvalue : (pyStrip ((resolveSshOptions rules output).getD "proxyjump" "")).length
      < 10 ^ 200 - 1 := by
    have hshort : ((resolveSshOptions rules output).getD "proxyjump" "").length
        ≤ sshMaxOutputBytes := by
      rw [Dict.getD_eq]
      cases hfound : (resolveSshOptions rules output).get? "proxyjump" with
      | none => exact Nat.zero_le _
      | some value => exact (length_resolveSshOptions hfound).trans (hreply output houtput)
    refine ((length_pyStrip_le _).trans hshort).trans_lt ?_
    unfold sshMaxOutputBytes
    omega
  split
  · exact safe_proxyJumpRoute hname haliases hvalue
  · split
    · exact safe_proxyCommandRoute hname haliases
    · exact fun hop hhop => by cases hhop

/-! ### The rounds of the planner -/

/-- What waits then: what waited before, and the wanted hops. -/
theorem mem_awaitHops {wanted : String → Bool} {hops pending : List String} {name : String} :
    name ∈ awaitHops wanted hops pending ↔ name ∈ pending ∨ name ∈ hops ∧ wanted name = true := by
  unfold awaitHops
  induction hops generalizing pending with
  | nil => simp
  | cons hop rest ih =>
    rw [List.foldl_cons, ih, List.mem_cons]
    split
    · next hnew =>
      rw [Bool.and_eq_true] at hnew
      rw [List.mem_append, List.mem_singleton]
      constructor
      · rintro ((hold | rfl) | ⟨hrest, hwanted⟩)
        · exact .inl hold
        · exact .inr ⟨.inl rfl, hnew.1⟩
        · exact .inr ⟨.inr hrest, hwanted⟩
      · rintro (hold | ⟨rfl | hrest, hwanted⟩)
        · exact .inl (.inl hold)
        · exact .inl (.inr rfl)
        · exact .inr ⟨hrest, hwanted⟩
    · next hold =>
      constructor
      · rintro (hpending | ⟨hrest, hwanted⟩)
        · exact .inl hpending
        · exact .inr ⟨.inr hrest, hwanted⟩
      · rintro (hpending | ⟨rfl | hrest, hwanted⟩)
        · exact .inl hpending
        · refine .inl (List.contains_iff_mem.mp ?_)
          rw [hwanted, Bool.true_and, Bool.not_eq_true, Bool.not_eq_false'] at hold
          exact hold
        · exact .inr ⟨hrest, hwanted⟩

/-- A run with routes of safe aliases that waits for known ones. -/
structure SafeRun (aliases : List String) (run : RouteRun) : Prop where
  routes : SafeRoutes run.routes
  pending : ∀ name ∈ run.pending, name ∈ aliases

/-- One more answer. -/
theorem SafeRun.settle {run : RouteRun} (h : SafeRun aliases run) (localHost : Option String)
    {answer : String × Option SshRoute}
    (hroute : ∀ route, answer.2 = some route → ∀ hop ∈ route.hops, isSafeAlias hop = true) :
    SafeRun aliases (settleRoute aliases localHost run answer) := by
  unfold settleRoute
  split
  · exact ⟨h.routes, h.pending⟩
  · next route hanswer =>
    refine ⟨fun name found hfound => ?_, fun name hname => ?_⟩
    · rw [Dict.get?_set] at hfound
      split at hfound
      · obtain rfl := Option.some.inj hfound
        exact hroute _ hanswer
      · exact h.routes name found hfound
    · rcases mem_awaitHops.mp hname with hpending | ⟨-, hwanted⟩
      · exact h.pending name hpending
      · exact (of_decide_eq_true hwanted).1

/-- One more round. -/
theorem SafeRun.settleRound {run : RouteRun} (h : SafeRun aliases run) (localHost : Option String)
    {replies : List (String × Option (List Char))}
    (haliases : ∀ name ∈ aliases, isSafeAlias name = true)
    (hasked : (replies.map Prod.fst).Perm run.pending)
    (hbounded : ∀ reply ∈ replies, ∀ output, reply.2 = some output →
      output.length ≤ sshMaxOutputBytes) :
    SafeRun aliases (settleRound rules aliases localHost run replies) := by
  have hanswers : ∀ (answers : List (String × Option SshRoute)) (run : RouteRun),
      (∀ answer ∈ answers, ∀ route, answer.2 = some route →
        ∀ hop ∈ route.hops, isSafeAlias hop = true) →
      SafeRun aliases run →
      SafeRun aliases (answers.foldl (settleRoute aliases localHost) run) := by
    intro answers
    induction answers with
    | nil => exact fun _ _ hrun => hrun
    | cons answer rest ih =>
      intro run hsafe hrun
      exact ih _ (fun other hother => hsafe other (List.mem_cons_of_mem _ hother))
        (hrun.settle localHost (hsafe answer List.mem_cons_self))
  refine hanswers _ _ (fun answer hanswer route hroute => ?_)
    ⟨h.routes, fun name hname => by cases hname⟩
  obtain ⟨reply, hreply, rfl⟩ := List.mem_map.mp hanswer
  have hknown : reply.1 ∈ aliases :=
    h.pending _ (hasked.subset (List.mem_map_of_mem hreply))
  exact safe_resolveRoute (haliases _ hknown) haliases (hbounded reply hreply) hroute

/-- Every route that the rounds find has safe hops. -/
theorem Rounds.safe {localHost : Option String} {start run : RouteRun}
    {log : List (String × Option (List Char))}
    (h : Rounds rules aliases localHost start log run)
    (haliases : ∀ name ∈ aliases, isSafeAlias name = true) (hstart : SafeRun aliases start) :
    SafeRun aliases run := by
  induction h with
  | start => exact hstart
  | round _ _ hasked hbounded ih => exact ih.settleRound localHost haliases hasked hbounded

/-- The routes of a resolution. -/
theorem safeRoutes_of_planned {targets : List String} {localHost : Option String}
    {resolution : SshRouteResolution} {failures : List String}
    (h : Planned rules aliases targets localHost resolution failures)
    (haliases : ∀ name ∈ aliases, isSafeAlias name = true) :
    SafeRoutes resolution.routeMap := by
  obtain ⟨log, run, hrounds, -, rfl, -⟩ := h
  have hsafe := hrounds.safe (fun name hname => haliases name (mem_sortedSet.mp hname))
    { routes := fun name route hroute => by cases hroute
      pending := fun name hname => by
        have hknown := (List.mem_filter.mp hname).2
        rw [Bool.and_eq_true, List.contains_iff_mem] at hknown
        exact hknown.1 }
  intro name route hroute
  have hentry := Dict.mem_of_get?_ofList hroute
  exact hsafe.routes name route ((Dict.get?_eq_some_iff _ _ _).mpr (mem_sortBy.mp hentry))

end Resolved

end Mocop
