import Mocop.Inventory.Acceptance

/-!
# `Mocop.Topology.Projection`: the display tree of the SSH routes

`project` lays the jump chains of the hosts out as one tree of links under a root. The chain
of a host is expanded through the first hop of each hop, with a cache and a guard against
cycles (`expandedHops`). A node keeps the parent that it was given first, and a tree with too
many links is cut breadth first (`retainTree`).

`project_accepted` is the main result: the links form a tree, and `connectionTopology`, which
checks the links of a configuration on its own terms, accepts them unchanged. Two invariants
carry it: `Grows` for the loop over the paths and `Retained` for the cut.
-/

set_option autoImplicit false

namespace Mocop

open TopologyLink (source target)

/-! ### Routes -/

/-- The effective route to one alias. -/
structure SshRoute where
  kind : String
  hops : List String := []
  isOpaque : Bool := false
  deriving DecidableEq

/-- The resolved routes. -/
structure SshRouteResolution where
  knownAliases : List String
  routes : List (String × SshRoute)
  warnings : List String

/-- The routes by alias. -/
def SshRouteResolution.routeMap (resolution : SshRouteResolution) : Dict String SshRoute :=
  Dict.ofList resolution.routes

/-- The first 48 characters of a group name. -/
def groupName (name : String) : String := String.ofList (name.toList.take hostGroupMaxLength)

/-- An ASCII digit. -/
def isDigit (c : Char) : Bool := 48 ≤ c.toNat && c.toNat ≤ 57

/-- The prefix of a numbered fleet: the part before a trailing number. A separator counts when
it is not the first character, and the last one decides. -/
def aliasGroupCandidate (name : String) : Option String :=
  let chars := name.toList
  let isSeparator := fun c => c == '-' || c == '_' || c == '.'
  let tail := (chars.reverse.takeWhile fun c => !isSeparator c).reverse
  let separator := chars.length - tail.length - 1
  if 0 < separator then
    if tail ≠ [] ∧ tail.all isDigit then some (String.ofList (chars.take separator)) else none
  else
    ((List.range chars.length).find? fun k =>
      0 < k && (chars.drop k).all isDigit).map fun k => String.ofList (chars.take k)

/-! ### Expanding the chains -/

/-- The expanded chains and the warnings so far. -/
structure Expansion where
  cache : Dict String (List String) := ∅
  warnings : List String := []

/-- Where a walk along the first hops has stopped: the nodes still to be expanded, deepest
first, and the chain in front of them. -/
structure Walk where
  stack : List String
  front : List String
  expansion : Expansion

section Project

variable (root : String) (routes : Dict String SshRoute)

/-- Walks along the first hops. Every step visits another known route, so one step for each
route and one for the end suffice. -/
def walkChain : ℕ → String → List String → Expansion → Walk
  | 0, _, stack, expansion => ⟨stack, [], expansion⟩
  | fuel + 1, cursor, stack, expansion =>
    match (routes.get? cursor).map (·.hops) with
    | none | some [] => ⟨stack, [], { expansion with cache := expansion.cache.set cursor [] }⟩
    | some (first :: _) =>
      if !routes.contains first then ⟨cursor :: stack, [], expansion⟩
      else
        match expansion.cache.get? first with
        | some front => ⟨cursor :: stack, front, expansion⟩
        | none =>
          if first ∈ cursor :: stack then
            ⟨cursor :: stack, [], { expansion with
              warnings := expansion.warnings ++ [first ++ ": proxy route cycle ignored"] }⟩
          else walkChain fuel first (cursor :: stack) expansion

/-- The hops of a node behind the chain in front of it, each once, without the root and the
node itself. -/
def combineHops (node : String) (front hops : List String) : List String :=
  (front ++ hops).foldl (fun combined hop =>
    if hop ∈ combined ∨ hop = root ∨ hop = node then combined else combined ++ [hop]) []

/-- Expands the nodes of a walk, deepest first. -/
def unwindChain : List String → List String → Expansion → Expansion
  | [], _, expansion => expansion
  | node :: stack, front, expansion =>
    let combined := combineHops root node front (((routes.get? node).map (·.hops)).getD [])
    unwindChain stack combined
      { expansion with cache := expansion.cache.set node combined }

/-- The chain of hops to an alias. -/
def expandedHops (name : String) (expansion : Expansion) : List String × Expansion :=
  match expansion.cache.get? name with
  | some hops => (hops, expansion)
  | none =>
    let walk := walkChain routes (routes.entries.length + 1) name [] expansion
    let expanded := unwindChain root routes walk.stack walk.front walk.expansion
    (expanded.cache.getD name [], expanded)

/-! ### Laying out the paths -/

/-- The progress over the hosts. -/
structure Layout where
  parents : Dict String String := ∅
  links : Dict (String × String) TopologyLink := ∅
  hostGroups : Dict String String := ∅
  infrastructure : List String := []
  directCandidates : Dict String String := ∅
  expansion : Expansion := {}

/-- The label of the link to a node. -/
def linkLabel (target : String) : Option String :=
  match routes.get? target with
  | none => none
  | some route =>
    if route.kind = "proxycommand" then some "ProxyCommand"
    else if route.isOpaque then some "opaque ProxyJump"
    else none

/-- Adds one link of a path, unless its target has another parent. -/
def addPathLink (layout : Layout) (ends : String × String) : Layout :=
  let (source, target) := ends
  if source = target then layout
  else if (layout.parents.get? target).any fun previous => previous ≠ source then
    { layout with expansion := { layout.expansion with
        warnings := layout.expansion.warnings
          ++ [target ++ ": ambiguous proxy parent " ++ source ++ " ignored"] } }
  else
    { layout with
      parents := layout.parents.set target source
      links := layout.links.set (source, target)
        { source := source, target := target, transport := "ssh",
          label := linkLabel routes target } }

/-- Lays out the path to one host. -/
def addHostPath (knownAliases : List String) (layout : Layout) (host : String) : Layout :=
  if host = root then layout
  else
    let (hops, expansion) := expandedHops root routes host layout.expansion
    let knownHops := hops.filter knownAliases.contains
    let layout := { layout with
      expansion := expansion, infrastructure := layout.infrastructure ++ hops }
    let layout :=
      match knownHops.getLast? with
      | some last => { layout with hostGroups := layout.hostGroups.set host (groupName last) }
      | none =>
        match aliasGroupCandidate host with
        | some candidate =>
          { layout with directCandidates := layout.directCandidates.set host candidate }
        | none => layout
    let path := root :: (hops ++ [host])
    (path.zip path.tail).foldl (addPathLink routes) layout

/-! ### Cutting the tree -/

/-- The links in the order of their ends. -/
def orderedLinks (layout : Layout) : List TopologyLink :=
  (layout.links.entries.mergeSort fun a b =>
    a.1.1 < b.1.1 || (a.1.1 == b.1.1 && decide (a.1.2 ≤ b.1.2))).map (·.2)

/-- Keeps the links breadth first, up to the limit. Every pending node but the root is the
target of a kept link, so one step for each kept link and one for the root suffice. -/
def retainTree (links : List TopologyLink) :
    ℕ → List String → List TopologyLink → List TopologyLink
  | 0, _, retained => retained
  | _ + 1, [], retained => retained
  | fuel + 1, source :: pending, retained =>
    if topologyMaxLinks ≤ retained.length then retained
    else
      let kept := (links.filter fun link => link.source = source).take
        (topologyMaxLinks - retained.length)
      retainTree links fuel (pending ++ kept.map (·.target)) (retained ++ kept)

/-- The links that are shown. -/
def displayLinks (links : List TopologyLink) : List TopologyLink :=
  if topologyMaxLinks < links.length then
    retainTree links (topologyMaxLinks + 1) [root] []
  else links

/-- The projected topology. -/
structure SshTopologyProjection where
  topology : Option TopologyDocument
  infrastructureHosts : List String
  hostGroups : List (String × String)
  warnings : List String

/-- The paths of all hosts. -/
def layOut (hosts : List String) (resolution : SshRouteResolution) : Layout :=
  (hosts.mergeSort (· ≤ ·)).foldl
    (addHostPath root resolution.routeMap resolution.knownAliases)
    { expansion := { warnings := resolution.warnings } }

/-- Projects the resolved routes into one tree. -/
def project (hosts : List String) (resolution : SshRouteResolution) : SshTopologyProjection :=
  let layout := layOut root hosts resolution
  let candidates := layout.directCandidates.values
  let hostGroups := layout.directCandidates.entries.foldl (fun groups entry =>
    if 2 ≤ candidates.count entry.2 then groups.set entry.1 (groupName entry.2) else groups)
    layout.hostGroups
  let ordered := orderedLinks layout
  let links := displayLinks root ordered
  let warnings := layout.expansion.warnings
    ++ if topologyMaxLinks < ordered.length then
      ["topology truncated to " ++ toString topologyMaxLinks ++ " display links"] else []
  { topology := if links.isEmpty then none else some { root := root, links := links }
    infrastructureHosts := layout.infrastructure.eraseDups.mergeSort (· ≤ ·)
    hostGroups := hostGroups.entries.mergeSort fun a b =>
      a.1 < b.1 || (a.1 == b.1 && decide (a.2 ≤ b.2))
    warnings := warnings.eraseDups.mergeSort (· ≤ ·) }

/-! ### The expanded chains -/

/-- Every hop of every route is a safe alias: a known one or a synthetic one. -/
def SafeRoutes (routes : Dict String SshRoute) : Prop :=
  ∀ name route, routes.get? name = some route → ∀ hop ∈ route.hops, isSafeAlias hop = true

/-- A chain of safe aliases other than the root. -/
def HopsOk (hops : List String) : Prop := root ∉ hops ∧ ∀ hop ∈ hops, isSafeAlias hop = true

/-- Every cached chain is one. -/
def Expansion.Ok (expansion : Expansion) : Prop :=
  ∀ name hops, expansion.cache.get? name = some hops → HopsOk root hops

variable {root routes}

theorem hopsOk_nil : HopsOk root [] := ⟨List.not_mem_nil, fun _ h => by cases h⟩

variable {expansion : Expansion} {links retained : List TopologyLink} {taken pending : List String}

/-- Caching one more chain. -/
theorem Expansion.Ok.set (h : expansion.Ok root) (name : String) {hops : List String}
    (hhops : HopsOk root hops) :
    Expansion.Ok root { expansion with cache := expansion.cache.set name hops } := by
  intro other found hfound
  rw [Dict.get?_set] at hfound
  split at hfound
  · cases hfound
    exact hhops
  · exact h other found hfound

/-- A combined chain has hops of both parts, without the root. -/
theorem hopsOk_combineHops {node : String} {front hops : List String} (hfront : HopsOk root front)
    (hhops : ∀ hop ∈ hops, isSafeAlias hop = true) :
    HopsOk root (combineHops root node front hops) := by
  have hfold : ∀ (l combined : List String), (∀ hop ∈ l, isSafeAlias hop = true) →
      HopsOk root combined →
      HopsOk root (l.foldl (fun combined hop =>
        if hop ∈ combined ∨ hop = root ∨ hop = node then combined else combined ++ [hop])
        combined) := by
    intro l
    induction l with
    | nil => exact fun _ _ h => h
    | cons hop rest ih =>
      intro combined hsafe h
      rw [List.foldl_cons]
      refine ih _ (fun x hx => hsafe x (List.mem_cons_of_mem _ hx)) ?_
      split
      · exact h
      · next hnew =>
        simp only [not_or] at hnew
        refine ⟨fun hmem => ?_, fun x hx => ?_⟩
        · rcases List.mem_append.mp hmem with hold | hlast
          · exact h.1 hold
          · exact hnew.2.1 (List.mem_singleton.mp hlast).symm
        · rcases List.mem_append.mp hx with hold | hlast
          · exact h.2 x hold
          · rw [List.mem_singleton.mp hlast]
            exact hsafe hop List.mem_cons_self
  refine hfold _ [] (fun hop hhop => ?_) hopsOk_nil
  rcases List.mem_append.mp hhop with hmem | hmem
  · exact hfront.2 hop hmem
  · exact hhops hop hmem

/-- A walk caches nothing but chains, and stops behind one. -/
theorem walkChain_ok (fuel : ℕ) (cursor : String) (stack : List String) {expansion : Expansion}
    (h : expansion.Ok root) :
    HopsOk root (walkChain routes fuel cursor stack expansion).front
      ∧ (walkChain routes fuel cursor stack expansion).expansion.Ok root := by
  induction fuel generalizing cursor stack with
  | zero => exact ⟨hopsOk_nil, h⟩
  | succ fuel ih =>
    rw [walkChain]
    split
    · exact ⟨hopsOk_nil, h.set cursor hopsOk_nil⟩
    · exact ⟨hopsOk_nil, h.set cursor hopsOk_nil⟩
    · split
      · exact ⟨hopsOk_nil, h⟩
      · split
        · next front hfront => exact ⟨h _ front hfront, h⟩
        · split
          · exact ⟨hopsOk_nil, h⟩
          · exact ih _ _

/-- Expanding the nodes of a walk caches chains. -/
theorem unwindChain_ok (hroutes : SafeRoutes routes) (stack : List String) {front : List String}
    (hfront : HopsOk root front) (h : expansion.Ok root) :
    (unwindChain root routes stack front expansion).Ok root := by
  induction stack generalizing front expansion with
  | nil => exact h
  | cons node rest ih =>
    rw [unwindChain]
    have hcombined : HopsOk root (combineHops root node front
        (((routes.get? node).map (·.hops)).getD [])) := by
      refine hopsOk_combineHops hfront fun hop hhop => ?_
      cases hroute : routes.get? node with
      | none =>
        rw [hroute] at hhop
        cases hhop
      | some route =>
        rw [hroute] at hhop
        exact hroutes node route hroute hop hhop
    exact ih hcombined (h.set node hcombined)

/-- An expanded chain is one of safe aliases other than the root. -/
theorem expandedHops_ok (hroutes : SafeRoutes routes) (name : String) (h : expansion.Ok root) :
    HopsOk root (expandedHops root routes name expansion).1
      ∧ (expandedHops root routes name expansion).2.Ok root := by
  unfold expandedHops
  split
  · next hops hhops => exact ⟨h name hops hhops, h⟩
  · obtain ⟨hfront, hwalk⟩ := @walkChain_ok root routes (routes.entries.length + 1) name []
      expansion h
    have hexpanded := unwindChain_ok hroutes
      (walkChain routes (routes.entries.length + 1) name [] expansion).stack hfront hwalk
    refine ⟨?_, hexpanded⟩
    dsimp only
    rw [Dict.getD_eq]
    cases hfound : (unwindChain root routes
        (walkChain routes (routes.entries.length + 1) name [] expansion).stack
        (walkChain routes (routes.entries.length + 1) name [] expansion).front
        (walkChain routes (routes.entries.length + 1) name [] expansion).expansion).cache.get?
        name with
    | none => exact hopsOk_nil
    | some hops => exact hexpanded name hops hfound

/-! ### The tree of parents -/

/-- One node is the parent of another. -/
def ParentOf (layout : Layout) (a b : String) : Prop := layout.parents.get? b = some a

/-- A node below another. -/
abbrev Descends (layout : Layout) : String → String → Prop :=
  Relation.ReflTransGen (ParentOf layout)

variable (root) in
/-- The layout is a tree under the root: every node with a parent is below the root, and the
links are those of the parents. -/
structure Grows (layout : Layout) : Prop where
  links : ∀ ends, (layout.links.get? ends).isSome ↔ layout.parents.get? ends.2 = some ends.1
  shape : ∀ ends link, layout.links.get? ends = some link → link.source = ends.1
    ∧ link.target = ends.2 ∧ link.transport = "ssh"
    ∧ link.label ∈ [none, some "ProxyCommand", some "opaque ProxyJump"]
  root_free : layout.parents.get? root = none
  no_self : ∀ a b, ParentOf layout a b → a ≠ b
  safe : ∀ a b, ParentOf layout a b → isSafeAlias a = true ∧ isSafeAlias b = true
  reached : ∀ a b, ParentOf layout a b → Descends layout root a

/-- The three labels. -/
theorem linkLabel_mem (routes : Dict String SshRoute) (target : String) :
    linkLabel routes target ∈ [none, some "ProxyCommand", some "opaque ProxyJump"] := by
  unfold linkLabel
  split
  · simp
  · split
    · simp
    · split <;> simp

/-- Adding the next link of a path: the layout stays a tree, and its target is below the
root. -/
theorem Grows.addPathLink {layout : Layout} (h : Grows root layout) {source target : String}
    (hsource : isSafeAlias source = true) (htarget : isSafeAlias target = true)
    (hroot : target ≠ root) (hreached : Descends layout root source) :
    Grows root (addPathLink routes layout (source, target))
      ∧ Descends (addPathLink routes layout (source, target)) root target := by
  unfold Mocop.addPathLink
  dsimp only
  split
  · next heq => exact ⟨h, heq ▸ hreached⟩
  · next hne =>
    split
    · next hother =>
      cases hprevious : layout.parents.get? target with
      | none =>
        rw [hprevious] at hother
        cases hother
      | some previous =>
        exact ⟨⟨h.links, h.shape, h.root_free, h.no_self, h.safe, h.reached⟩,
          (h.reached previous target hprevious).tail hprevious⟩
    · next hfree =>
      -- The target had no parent, or this very one, so no old edge is lost.
      have hold : ∀ previous, layout.parents.get? target = some previous → previous = source := by
        intro previous hprevious
        by_contra hnot
        exact hfree (by rw [hprevious]; simpa using hnot)
      have hedge : ∀ a b, ParentOf layout a b →
          (layout.parents.set target source).get? b = some a := by
        intro a b hparent
        rw [Dict.get?_set]
        split
        · next heq =>
          rw [hold a (heq ▸ hparent)]
        · exact hparent
      have hmono : ∀ a b, Descends layout a b → Relation.ReflTransGen (fun a b =>
          (layout.parents.set target source).get? b = some a) a b :=
        fun a b hpath => Relation.ReflTransGen.mono hedge _ _ hpath
      have hcases : ∀ a b, (layout.parents.set target source).get? b = some a →
          (b = target ∧ a = source) ∨ ParentOf layout a b := by
        intro a b hparent
        rw [Dict.get?_set] at hparent
        split at hparent
        · next heq => exact .inl ⟨heq, (Option.some.inj hparent).symm⟩
        · exact .inr hparent
      refine ⟨⟨fun ends => ?_, fun ends link hlink => ?_, ?_, fun a b hparent => ?_,
        fun a b hparent => ?_, fun a b hparent => ?_⟩, ?_⟩
      · obtain ⟨a, b⟩ := ends
        show ((layout.links.set (source, target) _).get? (a, b)).isSome = true
          ↔ (layout.parents.set target source).get? b = some a
        rw [Dict.get?_set, Dict.get?_set]
        by_cases hb : b = target
        · subst hb
          by_cases ha : a = source
          · simp [ha]
          · have hpair : ¬ (a, b) = (source, b) := fun heq => ha (Prod.mk.inj heq).1
            have hlink := h.links (a, b)
            rw [if_neg hpair, if_pos rfl, hlink]
            exact ⟨fun hparent => absurd (hold a hparent) ha,
              fun heq => absurd (Option.some.inj heq).symm ha⟩
        · have hpair : ¬ (a, b) = (source, target) := fun heq => hb (Prod.mk.inj heq).2
          rw [if_neg hpair, if_neg hb]
          exact h.links (a, b)
      · have hset : (layout.links.set (source, target) ⟨source, target, "ssh",
            linkLabel routes target⟩).get? ends = some link := hlink
        rw [Dict.get?_set] at hset
        split at hset
        · next heq =>
          cases hset
          exact ⟨by rw [heq], by rw [heq], rfl, linkLabel_mem routes target⟩
        · exact h.shape ends link hset
      · show (layout.parents.set target source).get? root = none
        rw [Dict.get?_set, if_neg (Ne.symm hroot)]
        exact h.root_free
      · rcases hcases a b hparent with ⟨rfl, rfl⟩ | hparent
        · exact hne
        · exact h.no_self a b hparent
      · rcases hcases a b hparent with ⟨rfl, rfl⟩ | hparent
        · exact ⟨hsource, htarget⟩
        · exact h.safe a b hparent
      · rcases hcases a b hparent with ⟨rfl, rfl⟩ | hparent
        · exact hmono _ _ hreached
        · exact hmono _ _ (h.reached a b hparent)
      · refine (hmono _ _ hreached).tail ?_
        show (layout.parents.set target source).get? target = some source
        simp

/-- Laying out a path from a node below the root. -/
theorem Grows.addPath {layout : Layout} (h : Grows root layout) {start : String}
    {path : List String} (hreached : Descends layout root start)
    (hsafe : ∀ node ∈ start :: path, isSafeAlias node = true) (hroot : root ∉ path) :
    Grows root (((start :: path).zip path).foldl (Mocop.addPathLink routes) layout) := by
  induction path generalizing layout start with
  | nil => exact h
  | cons next rest ih =>
    rw [List.zip_cons_cons, List.foldl_cons]
    obtain ⟨hgrows, hnext⟩ := @Grows.addPathLink root routes layout h start next
      (hsafe start List.mem_cons_self) (hsafe next (by simp))
      (fun heq => hroot (heq ▸ List.mem_cons_self)) hreached
    exact ih hgrows hnext (fun node hnode => hsafe node (List.mem_cons_of_mem _ hnode))
      fun hmem => hroot (List.mem_cons_of_mem _ hmem)

/-- The tree reads the parents and the links alone. -/
theorem Grows.congr {layout other : Layout} (h : Grows root layout)
    (hparents : other.parents = layout.parents) (hlinks : other.links = layout.links) :
    Grows root other := by
  have hparent : ParentOf other = ParentOf layout := by
    funext a b
    rw [ParentOf, hparents, ParentOf]
  refine ⟨?_, ?_, ?_, ?_, ?_, ?_⟩
  · rw [hparents, hlinks]
    exact h.links
  · rw [hlinks]
    exact h.shape
  · rw [hparents]
    exact h.root_free
  · rw [hparent]
    exact h.no_self
  · rw [hparent]
    exact h.safe
  · unfold Descends
    rw [hparent]
    exact h.reached

/-- Adding a link leaves the cache as it is. -/
theorem cache_addPathLink (layout : Layout) (ends : String × String) :
    (addPathLink routes layout ends).expansion.cache = layout.expansion.cache := by
  unfold addPathLink
  dsimp only
  split
  · rfl
  · split <;> rfl

/-- Adding the links of a path leaves the cache as it is. -/
theorem cache_addPath (ends : List (String × String)) (layout : Layout) :
    (ends.foldl (addPathLink routes) layout).expansion.cache = layout.expansion.cache := by
  induction ends generalizing layout with
  | nil => rfl
  | cons first rest ih => rw [List.foldl_cons, ih, cache_addPathLink]

/-- Laying out the path to one host. -/
theorem Grows.addHostPath {layout : Layout} (h : Grows root layout)
    (hcache : layout.expansion.Ok root) (hroutes : SafeRoutes routes)
    (hroot : isSafeAlias root = true) (knownAliases : List String) {host : String}
    (hhost : isSafeAlias host = true) :
    Grows root (addHostPath root routes knownAliases layout host)
      ∧ (addHostPath root routes knownAliases layout host).expansion.Ok root := by
  unfold Mocop.addHostPath
  split
  · exact ⟨h, hcache⟩
  · next hne =>
    obtain ⟨hhops, hexpanded⟩ := expandedHops_ok hroutes host hcache
    rcases hresult : expandedHops root routes host layout.expansion with ⟨hops, expansion⟩
    rw [hresult] at hhops hexpanded
    dsimp only
    -- Whatever group is noted, the parents, the links and the cache are these.
    have hpath : ∀ noted : Layout, noted.parents = layout.parents → noted.links = layout.links →
        noted.expansion = expansion →
        Grows root (((root :: (hops ++ [host])).zip (hops ++ [host])).foldl
            (Mocop.addPathLink routes) noted)
          ∧ (((root :: (hops ++ [host])).zip (hops ++ [host])).foldl
            (Mocop.addPathLink routes) noted).expansion.Ok root := by
      intro noted hparents hlinks hexpansion
      refine ⟨(h.congr hparents hlinks).addPath .refl (fun node hnode => ?_) fun hmem => ?_, ?_⟩
      · rcases List.mem_cons.mp hnode with rfl | hmem
        · exact hroot
        · rcases List.mem_append.mp hmem with hhop | hlast
          · exact hhops.2 node hhop
          · rw [List.mem_singleton.mp hlast]
            exact hhost
      · rcases List.mem_append.mp hmem with hhop | hlast
        · exact hhops.1 hhop
        · exact hne (List.mem_singleton.mp hlast).symm
      · intro name found hfound
        rw [cache_addPath, hexpansion] at hfound
        exact hexpanded name found hfound
    split
    · exact hpath _ rfl rfl rfl
    · split
      · exact hpath _ rfl rfl rfl
      · exact hpath _ rfl rfl rfl

/-- Laying out the paths of all hosts. -/
theorem grows_layOut {hosts : List String} {resolution : SshRouteResolution}
    (hroutes : SafeRoutes resolution.routeMap) (hroot : isSafeAlias root = true)
    (hhosts : ∀ host ∈ hosts, isSafeAlias host = true) :
    Grows root (layOut root hosts resolution) := by
  have hfold : ∀ (l : List String) (layout : Layout), (∀ host ∈ l, isSafeAlias host = true) →
      Grows root layout → layout.expansion.Ok root →
      Grows root (l.foldl (addHostPath root resolution.routeMap resolution.knownAliases)
        layout) := by
    intro l
    induction l with
    | nil => exact fun _ _ h _ => h
    | cons host rest ih =>
      intro layout hsafe h hcache
      obtain ⟨hgrows, hok⟩ := h.addHostPath hcache hroutes hroot resolution.knownAliases
        (hsafe host List.mem_cons_self)
      exact ih _ (fun x hx => hsafe x (List.mem_cons_of_mem _ hx)) hgrows hok
  refine hfold _ _ (fun host hhost => hhosts host (List.mem_mergeSort.mp hhost)) ?_ ?_
  · refine ⟨fun ends => by simp, fun ends link h => ?_, rfl, fun a b h => ?_, fun a b h => ?_,
      fun a b h => ?_⟩ <;> cases h
  · intro name hops h
    cases h

/-! ### The links of the tree -/

/-- The links that a layout lists, as links of a document. -/
structure LinkTree (root : String) (links : List TopologyLink) : Prop where
  shape : ∀ link ∈ links, isSafeAlias link.source = true ∧ isSafeAlias link.target = true
    ∧ link.source ≠ link.target ∧ link.target ≠ root ∧ link.transport = "ssh"
    ∧ link.label ∈ [none, some "ProxyCommand", some "opaque ProxyJump"]
  one_parent : (links.map (·.target)).Nodup
  reached : ∀ link ∈ links, Reaches source target links root link.source

/-- The listed links of a layout are a tree. -/
theorem Grows.linkTree {layout : Layout} (h : Grows root layout) :
    LinkTree root (orderedLinks layout) := by
  have hmem : ∀ link, link ∈ orderedLinks layout
      ↔ ∃ ends, layout.links.get? ends = some link := by
    intro link
    unfold orderedLinks
    simp only [List.mem_map, List.mem_mergeSort, Dict.get?_eq_some_iff]
    exact ⟨fun ⟨entry, hentry, heq⟩ => ⟨entry.1, heq ▸ hentry⟩,
      fun ⟨ends, hends⟩ => ⟨(ends, link), hends, rfl⟩⟩
  have hparent : ∀ ends link, layout.links.get? ends = some link →
      ParentOf layout link.source link.target := by
    intro ends link hlink
    obtain ⟨hsource, htarget, _⟩ := h.shape ends link hlink
    rw [ParentOf, hsource, htarget]
    exact (h.links ends).mp (by rw [hlink]; rfl)
  have hedge : ∀ a b, ParentOf layout a b →
      Linked source target (orderedLinks layout) a b := by
    intro a b hab
    obtain ⟨link, hlink⟩ := Option.isSome_iff_exists.mp ((h.links (a, b)).mpr hab)
    obtain ⟨hsource, htarget, _⟩ := h.shape _ link hlink
    exact ⟨link, (hmem link).mpr ⟨_, hlink⟩, hsource, htarget⟩
  refine ⟨fun link hlink => ?_, ?_, fun link hlink => ?_⟩
  · obtain ⟨ends, hends⟩ := (hmem link).mp hlink
    have hedge := hparent ends link hends
    obtain ⟨hsource, htarget⟩ := h.safe _ _ hedge
    obtain ⟨_, _, htransport, hlabel⟩ := h.shape ends link hends
    refine ⟨hsource, htarget, h.no_self _ _ hedge, fun heq => ?_, htransport, hlabel⟩
    rw [ParentOf, heq, h.root_free] at hedge
    cases hedge
  · -- Two links into one node have the same ends, and the ends are the keys.
    have hperm : ((orderedLinks layout).map (·.target)).Perm
        ((layout.links.entries.map (·.2)).map (·.target)) :=
      ((List.mergeSort_perm _ _).map _).map _
    rw [hperm.nodup_iff, List.map_map]
    have hkeys : layout.links.entries.Nodup := layout.links.nodup.of_map
    refine hkeys.map_on fun a ha b hb heq => ?_
    have hfound : ∀ entry ∈ layout.links.entries,
        layout.links.get? entry.1 = some entry.2 := fun entry hentry =>
      (Dict.get?_eq_some_iff _ _ _).mpr hentry
    have hsource : ∀ entry ∈ layout.links.entries,
        layout.parents.get? entry.2.target = some entry.1.1 := by
      intro entry hentry
      obtain ⟨_, htarget, _⟩ := h.shape _ _ (hfound entry hentry)
      rw [htarget]
      exact (h.links entry.1).mp (by rw [hfound entry hentry]; rfl)
    have htargets : a.2.target = b.2.target := heq
    have hsources := (hsource a ha).symm.trans (htargets ▸ hsource b hb)
    have hends : a.1 = b.1 := by
      obtain ⟨_, hatarget, _⟩ := h.shape _ _ (hfound a ha)
      obtain ⟨_, hbtarget, _⟩ := h.shape _ _ (hfound b hb)
      exact Prod.ext (Option.some.inj hsources) (by rw [← hatarget, ← hbtarget, htargets])
    have hvalues := (hfound a ha).symm.trans (hends ▸ hfound b hb)
    exact Prod.ext hends (Option.some.inj hvalues)
  · obtain ⟨ends, hends⟩ := (hmem link).mp hlink
    exact Relation.ReflTransGen.mono hedge _ _ (h.reached _ _ (hparent ends link hends))

/-- The progress of the cut: the nodes taken so far and the pending ones are the root and the
targets of the kept links, in this order, and every kept link starts at a taken node. -/
structure Retained (root : String) (links : List TopologyLink) (taken pending : List String)
    (retained : List TopologyLink) : Prop where
  queue : taken ++ pending = root :: retained.map (·.target)
  listed : ∀ link ∈ retained, link ∈ links
  nodup : retained.Nodup
  sources : ∀ link ∈ retained, link.source ∈ taken
  reached : ∀ link ∈ retained,
    Reaches source target retained root link.source
  bounded : retained.length ≤ topologyMaxLinks

/-- A queued node is below the root along the kept links. -/
theorem Retained.reaches (h : Retained root links taken pending retained) {node : String}
    (hnode : node ∈ taken ++ pending) :
    Reaches source target retained root node := by
  rw [h.queue] at hnode
  rcases List.mem_cons.mp hnode with rfl | hmem
  · exact .refl
  · obtain ⟨link, hlink, rfl⟩ := List.mem_map.mp hmem
    exact (h.reached link hlink).tail ⟨link, hlink, rfl, rfl⟩

/-- No node is queued twice. -/
theorem Retained.nodup_queue (h : Retained root links taken pending retained)
    (htree : LinkTree root links) :
    (taken ++ pending).Nodup := by
  rw [h.queue, List.nodup_cons]
  constructor
  · intro hmem
    obtain ⟨link, hlink, heq⟩ := List.mem_map.mp hmem
    exact (htree.shape link (h.listed link hlink)).2.2.2.1 heq
  · refine h.nodup.map_on fun a ha b hb heq => ?_
    exact List.inj_on_of_nodup_map htree.one_parent (h.listed a ha) (h.listed b hb) heq

/-- Taking one more node keeps links from it. -/
theorem Retained.step {source : String} (h : Retained root links taken (source :: pending) retained)
    (htree : LinkTree root links) (room : ℕ) (hroom : retained.length + room ≤ topologyMaxLinks) :
    Retained root links (taken ++ [source])
      (pending ++ (((links.filter fun link => link.source = source).take room).map (·.target)))
      (retained ++ (links.filter fun link => link.source = source).take room) := by
  have hkept : ∀ link ∈ (links.filter fun link => link.source = source).take room,
      link ∈ links ∧ link.source = source := fun link hlink => by
    simpa using List.mem_filter.mp (List.mem_of_mem_take hlink)
  have hsub : retained ⊆ retained
      ++ (links.filter fun link => link.source = source).take room :=
    List.subset_append_left _ _
  have hnew : source ∉ taken := by
    have hnodup := h.nodup_queue htree
    rw [List.nodup_append] at hnodup
    exact fun hmem => hnodup.2.2 source hmem source List.mem_cons_self rfl
  refine ⟨?_, fun link hlink => ?_, ?_, fun link hlink => ?_, fun link hlink => ?_, ?_⟩
  · rw [List.map_append, ← List.cons_append, ← h.queue]
    simp
  · rcases List.mem_append.mp hlink with hold | hmem
    · exact h.listed link hold
    · exact (hkept link hmem).1
  · refine List.nodup_append.mpr ⟨h.nodup,
      ((htree.one_parent.of_map).filter _).sublist (List.take_sublist _ _), fun a ha b hb heq => ?_⟩
    exact hnew ((hkept b hb).2 ▸ heq ▸ h.sources a ha)
  · rcases List.mem_append.mp hlink with hold | hmem
    · exact List.mem_append_left _ (h.sources link hold)
    · rw [(hkept link hmem).2]
      exact List.mem_append_right _ (List.mem_singleton.mpr rfl)
  · rcases List.mem_append.mp hlink with hold | hmem
    · exact (h.reached link hold).mono _ _ hsub
    · rw [(hkept link hmem).2]
      exact (h.reaches (List.mem_append_right _ List.mem_cons_self)).mono _ _ hsub
  · rw [List.length_append]
    have := List.length_take_le room (links.filter fun link => link.source = source)
    omega

/-- The cut ends with kept links. -/
theorem Retained.retainTree {links : List TopologyLink} (htree : LinkTree root links) (fuel : ℕ)
    {retained : List TopologyLink} {taken pending : List String}
    (h : Retained root links taken pending retained) :
    ∃ taken' pending', Retained root links taken' pending'
      (retainTree links fuel pending retained) := by
  induction fuel generalizing retained taken pending with
  | zero => exact ⟨taken, pending, h⟩
  | succ fuel ih =>
    cases pending with
    | nil => exact ⟨taken, [], h⟩
    | cons source rest =>
      rw [Mocop.retainTree]
      split
      · exact ⟨taken, source :: rest, h⟩
      · exact ih (h.step htree (topologyMaxLinks - retained.length) (by omega))

/-- The displayed links are a tree within the limit. -/
theorem LinkTree.displayLinks {links : List TopologyLink} (h : LinkTree root links) :
    LinkTree root (displayLinks root links)
      ∧ (displayLinks root links).length ≤ topologyMaxLinks := by
  unfold Mocop.displayLinks
  split
  · obtain ⟨_, _, hretained⟩ := @Retained.retainTree root links h (topologyMaxLinks + 1) [] []
      [root] ⟨rfl, by simp, List.nodup_nil, by simp, by simp, Nat.zero_le _⟩
    refine ⟨⟨fun link hlink => h.shape link (hretained.listed link hlink), ?_,
      hretained.reached⟩, hretained.bounded⟩
    refine hretained.nodup.map_on fun a ha b hb heq => ?_
    exact List.inj_on_of_nodup_map h.one_parent (hretained.listed a ha) (hretained.listed b hb) heq
  · next hle => exact ⟨h, Nat.le_of_not_lt hle⟩

end Project

/-! ### The validator -/

section Validator

variable {V : Type} {rules : ValueRules V} {root : String}

/-- The characters of the labels are visible ones. -/
def LabelsVisible (rules : ValueRules V) : Prop :=
  ∀ c ∈ "ProxyCommand".toList ++ "opaque ProxyJump".toList, rules.isOther c = false

/-- A displayed tree is a tree in the eyes of the validator. -/
theorem LinkTree.treeDocument {links : List TopologyLink} (h : LinkTree root links)
    (hbounded : links.length ≤ topologyMaxLinks) (hroot : isSafeAlias root = true)
    (hlabels : LabelsVisible rules) : TreeDocument rules { root := root, links := links } where
  root_safe := hroot
  bounded := hbounded
  links_ok := fun link hlink => by
    obtain ⟨hsource, htarget, hself, henter, htransport, hlabel⟩ := h.shape link hlink
    refine ⟨hsource, htarget, hself, henter, by rw [htransport]; decide, fun text htext => ?_⟩
    simp only [htext, List.mem_cons, reduceCtorEq, Option.some.injEq, List.not_mem_nil, or_false,
      false_or] at hlabel
    rcases hlabel with rfl | rfl
    · exact ⟨by decide +kernel, by decide +kernel, fun c hc =>
        hlabels c (List.mem_append_left _ hc)⟩
    · exact ⟨by decide +kernel, by decide +kernel, fun c hc =>
        hlabels c (List.mem_append_right _ hc)⟩
  one_parent := h.one_parent
  reached := h.reached

/-- A displayed label has no blanks to trim. -/
theorem LinkTree.map_trimLabel {links : List TopologyLink} (h : LinkTree root links) :
    links.map trimLabel = links := by
  conv_rhs => rw [← List.map_id links]
  refine List.map_congr_left fun link hlink => ?_
  obtain ⟨_, _, _, _, _, hlabel⟩ := h.shape link hlink
  have hstrip : link.label.map pyStrip = link.label := by
    simp only [List.mem_cons, List.not_mem_nil, or_false] at hlabel
    rcases hlabel with heq | heq | heq <;> rw [heq] <;> decide +kernel
  unfold trimLabel
  rw [hstrip]
  rfl

/-- For safe aliases, whatever the jump chains are, the projected links form a tree under the
root within the limit, every linked node is reached from the root, and the validator of the
configuration accepts the topology unchanged. -/
theorem project_accepted (hosts : List String) (resolution : SshRouteResolution)
    (hroot : isSafeAlias root = true) (hhosts : ∀ host ∈ hosts, isSafeAlias host = true)
    (hroutes : SafeRoutes resolution.routeMap) (hlabels : LabelsVisible rules)
    {topology : TopologyDocument} (h : (project root hosts resolution).topology = some topology) :
    topology.root = root ∧ TreeDocument rules topology
      ∧ (∀ link ∈ topology.links,
        Reaches source target topology.links root link.target)
      ∧ connectionTopology rules topology = .ok topology := by
  obtain ⟨htree, hbounded⟩ := (grows_layOut hroutes hroot hhosts).linkTree.displayLinks
  have hprojected : (if (displayLinks root (orderedLinks (layOut root hosts resolution))).isEmpty
      then none else some (TopologyDocument.mk root
        (displayLinks root (orderedLinks (layOut root hosts resolution))))) = some topology := h
  split at hprojected
  · cases hprojected
  · cases hprojected
    have hdocument := htree.treeDocument hbounded hroot hlabels
    refine ⟨rfl, hdocument, fun link hlink => ?_, ?_⟩
    · exact (htree.reached link hlink).tail ⟨link, hlink, rfl, rfl⟩
    · rw [connectionTopology_eq_ok_iff]
      exact ⟨hdocument, by rw [htree.map_trimLabel]⟩

end Validator

/-- Three hosts whose jump chains form a cycle. -/
private def cyclicJumps : SshRouteResolution where
  knownAliases := ["gpu-01", "gpu-02", "jump"]
  routes := [("gpu-01", { kind := "proxyjump", hops := ["jump"] }),
    ("gpu-02", { kind := "proxyjump", hops := ["gpu-01"] }),
    ("jump", { kind := "proxyjump", hops := ["gpu-02"] })]
  warnings := []

/-- The chains of a cycle still give a tree. -/
theorem project_accepted_cycle :
    ∃ topology, (project "local" ["gpu-01"] cyclicJumps).topology = some topology
      ∧ connectionTopology .lax topology = .ok topology := by
  have hlinks : (layOut "local" ["gpu-01"] cyclicJumps).links.entries.length = 3 := by
    decide +kernel
  have hordered : (orderedLinks (layOut "local" ["gpu-01"] cyclicJumps)).length = 3 := by
    rw [orderedLinks, List.length_map, List.length_mergeSort, hlinks]
  have hshown : displayLinks "local" (orderedLinks (layOut "local" ["gpu-01"] cyclicJumps))
      = orderedLinks (layOut "local" ["gpu-01"] cyclicJumps) := by
    rw [displayLinks, if_neg (by rw [hordered]; decide)]
  have htopology : (project "local" ["gpu-01"] cyclicJumps).topology
      = some ⟨"local", orderedLinks (layOut "local" ["gpu-01"] cyclicJumps)⟩ := by
    show (if (displayLinks "local" _).isEmpty then none else some _) = _
    rw [hshown, if_neg (by simp [← List.length_eq_zero_iff, hordered])]
  have hroutes : SafeRoutes cyclicJumps.routeMap := by
    intro name route hroute hop hhop
    have hmem : (name, route) ∈ cyclicJumps.routes :=
      (Dict.get?_ofList_of_nodup _ (by decide) _ _).mp hroute
    have hall : ∀ entry ∈ cyclicJumps.routes, ∀ hop ∈ entry.2.hops, isSafeAlias hop = true := by
      decide +kernel
    exact hall _ hmem hop hhop
  exact ⟨_, htopology, (@project_accepted _ .lax "local" ["gpu-01"] cyclicJumps
    (by decide +kernel) (by decide +kernel) hroutes (fun _ _ => rfl) _ htopology).2.2.2⟩

end Mocop
