import Mocop.Topology.Projection
import Mathlib.Data.List.Chain

/-!
# `Mocop.Topology.Expansion`: the memoised expansion of the jump chains

`expandedHops` walks along the first hops with an explicit stack, a memo and a guard against
cycles, and then unwinds the stack. It replaces a recursion, `ExpandsTo`: the expansion of the first
hop, followed by the own hops, each once, without the root and the node itself.

`expandedHops_eq_recursive` says that the loop ends, and that it returns the recursive chain for
every host whose first hops lead into no cycle, whatever was expanded before. Such a host shares no
node with a cycle, and the memo is right for every node that has a recursive chain (`SoundMemo`).
What the memo has for the nodes of a cycle depends on where the walk entered it, and no chain
without a cycle reads it.
-/

set_option autoImplicit false

namespace Mocop

open Relation

variable {root : String} {routes : Dict String SshRoute}

/-! ### The recursive chain -/

/-- The configured hops of a node. -/
def hopsOf (routes : Dict String SshRoute) (node : String) : List String :=
  ((routes.get? node).map (·.hops)).getD []

/-- The first hop of a node. -/
def FirstHop (routes : Dict String SshRoute) (node first : String) : Prop :=
  ∃ rest, hopsOf routes node = first :: rest

/-- The hops behind a chain, without repetitions, the root and the node. -/
def joinHops (root node : String) (front hops : List String) : List String :=
  ((front ++ hops).filter fun hop => hop ≠ root ∧ hop ≠ node).eraseDups

/-- The recursion: a node without hops has no chain in front of it, and any other node has the chain
of its first hop and its own hops. -/
inductive ExpandsTo (root : String) (routes : Dict String SshRoute) :
    String → List String → Prop where
  | direct {node : String} (h : hopsOf routes node = []) : ExpandsTo root routes node []
  | through {node first : String} {front : List String} (hfirst : FirstHop routes node first)
      (h : ExpandsTo root routes first front) :
      ExpandsTo root routes node (joinHops root node front (hopsOf routes node))

/-- The first hops of a node lead into no cycle. -/
def AcyclicFrom (routes : Dict String SshRoute) (node : String) : Prop :=
  ∀ other, ReflTransGen (FirstHop routes) node other → ¬ TransGen (FirstHop routes) other other

theorem FirstHop.unique {node first first' : String} (h : FirstHop routes node first)
    (h' : FirstHop routes node first') : first = first' := by
  obtain ⟨rest, h⟩ := h
  obtain ⟨rest', h'⟩ := h'
  rw [h] at h'
  exact (List.cons.inj h').1

variable {node cursor : String} {stack : List String} {expansion : Expansion}

/-- A node has one recursive chain. -/
theorem ExpandsTo.unique {hops hops' : List String} (h : ExpandsTo root routes node hops)
    (h' : ExpandsTo root routes node hops') :
    hops = hops' := by
  induction h generalizing hops' with
  | direct hnone =>
    cases h' with
    | direct _ => rfl
    | through hfirst _ =>
      obtain ⟨rest, hrest⟩ := hfirst
      rw [hnone] at hrest
      cases hrest
  | through hfirst _ ih =>
    cases h' with
    | direct hnone =>
      obtain ⟨rest, hrest⟩ := hfirst
      rw [hnone] at hrest
      cases hrest
    | through hfirst' hfront' =>
      obtain rfl := hfirst.unique hfirst'
      rw [ih hfront']

/-- A node with a recursive chain is on no cycle. -/
theorem ExpandsTo.not_cycle {hops : List String} (h : ExpandsTo root routes node hops) :
    ¬ TransGen (FirstHop routes) node node := by
  induction h with
  | direct hnone =>
    intro hcycle
    obtain ⟨next, ⟨rest, hrest⟩, -⟩ := TransGen.head'_iff.mp hcycle
    rw [hnone] at hrest
    cases hrest
  | @through node first front hfirst _ ih =>
    intro hcycle
    obtain ⟨next, hnext, hback⟩ := TransGen.head'_iff.mp hcycle
    -- The cycle goes through the first hop.
    obtain rfl := hfirst.unique hnext
    exact ih (TransGen.tail' hback hfirst)

/-- The loop over the hops joins them. -/
theorem combineHops_eq (node : String) (front hops : List String) :
    combineHops root node front hops = joinHops root node front hops := by
  have hfold : ∀ l combined : List String,
      l.foldl (fun combined hop =>
        if hop ∈ combined ∨ hop = root ∨ hop = node then combined else combined ++ [hop]) combined
      = combined ++ ((l.filter fun hop => hop ≠ root ∧ hop ≠ node).filter
          (· ∉ combined)).eraseDups := by
    intro l
    induction l with
    | nil => simp
    | cons hop rest ih =>
      intro combined
      rw [List.foldl_cons]
      by_cases hskip : hop ∈ combined ∨ hop = root ∨ hop = node
      · rw [if_pos hskip, ih]
        congr 2
        rcases hskip with hmem | hroot | hnode
        · by_cases hkept : hop ≠ root ∧ hop ≠ node
          · simp [hkept, hmem]
          · rw [List.filter_cons_of_neg (by simpa using hkept)]
        · simp [hroot]
        · simp [hnode]
      · simp only [not_or] at hskip
        rw [if_neg (by simpa using hskip), ih, List.filter_cons_of_pos (by simp [hskip]),
          List.filter_cons_of_pos (by simp [hskip]), List.eraseDups_cons, List.append_assoc]
        simp only [List.filter_filter]
        rw [List.singleton_append]
        refine congrArg (fun kept => combined ++ hop :: kept.eraseDups)
          (List.filter_congr fun other _ => ?_)
        by_cases hother : other = hop
        · simp [hother]
        · simp [hother]
  unfold combineHops joinHops
  rw [hfold]
  simp

/-! ### The loop -/

/-- The rounds of the walk: from a cursor and the stack below it, the loop stops at a walk. A
derivation is a finite run of the loop. -/
inductive WalksTo (routes : Dict String SshRoute) :
    String → List String → Expansion → Walk → Prop where
  | ended {cursor : String} {stack : List String} {expansion : Expansion}
      (h : hopsOf routes cursor = []) :
      WalksTo routes cursor stack expansion
        ⟨stack, [], { expansion with cache := expansion.cache.set cursor [] }⟩
  | unrouted {cursor first : String} {stack : List String} {expansion : Expansion}
      (hfirst : FirstHop routes cursor first) (h : routes.get? first = none) :
      WalksTo routes cursor stack expansion ⟨cursor :: stack, [], expansion⟩
  | cached {cursor first : String} {stack : List String} {expansion : Expansion}
      {front : List String} (hfirst : FirstHop routes cursor first)
      (h : expansion.cache.get? first = some front) :
      WalksTo routes cursor stack expansion ⟨cursor :: stack, front, expansion⟩
  | cycle {cursor first : String} {stack : List String} {expansion : Expansion}
      (hfirst : FirstHop routes cursor first) (h : first ∈ cursor :: stack) :
      WalksTo routes cursor stack expansion
        ⟨cursor :: stack, [], { expansion with
          warnings := expansion.warnings ++ [first ++ ": proxy route cycle ignored"] }⟩
  | next {cursor first : String} {stack : List String} {expansion : Expansion} {walk : Walk}
      (hfirst : FirstHop routes cursor first) (hnew : first ∉ cursor :: stack)
      (h : WalksTo routes first (cursor :: stack) expansion walk) :
      WalksTo routes cursor stack expansion walk

theorem mem_keys_of_firstHop {node first : String} (h : FirstHop routes node first) :
    node ∈ routes.keys := by
  obtain ⟨rest, hrest⟩ := h
  rw [Dict.mem_keys]
  cases hget : routes.get? node with
  | none =>
    rw [hopsOf, hget] at hrest
    cases hrest
  | some route => rfl

/-- The loop ends: each round leaves another routed node on the stack. -/
theorem walksTo_walkChain (fuel : ℕ) (cursor : String) (stack : List String)
    (expansion : Expansion) (hnodup : (cursor :: stack).Nodup)
    (hstack : ∀ node ∈ stack, node ∈ routes.keys)
    (hfuel : routes.entries.length < fuel + stack.length) :
    WalksTo routes cursor stack expansion (walkChain routes fuel cursor stack expansion) := by
  have hkeys : routes.keys.length = routes.entries.length := List.length_map _
  induction fuel generalizing cursor stack with
  | zero =>
    -- The stack would hold more nodes than there are routes.
    have hle := ((List.nodup_cons.mp hnodup).2.subperm hstack).length_le
    omega
  | succ fuel ih =>
    rw [walkChain]
    split
    · next hnone =>
      refine .ended ?_
      rw [hopsOf, hnone]
      rfl
    · next hempty =>
      refine .ended ?_
      rw [hopsOf, hempty]
      rfl
    · next first rest hhops =>
      have hfirst : FirstHop routes cursor first := by
        refine ⟨rest, ?_⟩
        rw [hopsOf, hhops]
        rfl
      by_cases hrouted : routes.contains first = true
      · rw [hrouted, if_neg (by decide)]
        cases hfound : expansion.cache.get? first with
        | some front => exact .cached hfirst hfound
        | none =>
          dsimp only
          by_cases hseen : first ∈ cursor :: stack
          · rw [if_pos hseen]
            exact .cycle hfirst hseen
          · rw [if_neg hseen]
            refine .next hfirst hseen (ih first (cursor :: stack)
              (List.nodup_cons.mpr ⟨hseen, hnodup⟩) (fun node hnode => ?_) ?_)
            · rcases List.mem_cons.mp hnode with rfl | hin
              · exact mem_keys_of_firstHop hfirst
              · exact hstack node hin
            · rw [List.length_cons]
              omega
      · have hnone : routes.get? first = none := by
          simpa [Dict.contains_eq] using hrouted
        rw [Bool.eq_false_of_not_eq_true hrouted, if_pos (by decide)]
        exact .unrouted hfirst hnone

/-! ### The memo -/

/-- The memo is right for every node with a recursive chain. -/
def SoundMemo (root : String) (routes : Dict String SshRoute)
    (cache : Dict String (List String)) : Prop :=
  ∀ node hops, cache.get? node = some hops → ∀ chain, ExpandsTo root routes node chain →
    hops = chain

theorem SoundMemo.set {cache : Dict String (List String)} (h : SoundMemo root routes cache)
    {hops : List String} (hnode : ∀ chain, ExpandsTo root routes node chain → hops = chain) :
    SoundMemo root routes (cache.set node hops) := by
  intro other found hfound chain hchain
  rw [Dict.get?_set] at hfound
  split at hfound
  · next hsame =>
    subst hsame
    exact Option.some.inj hfound ▸ hnode chain hchain
  · exact h other found hfound chain hchain

/-- The nodes of a stack, deepest first: each is the first hop of the one below. -/
abbrev HopStack (routes : Dict String SshRoute) (stack : List String) : Prop :=
  stack.IsChain fun first node => FirstHop routes node first

/-- The chain that the loop found in front of the deepest node is the recursive one. -/
def FrontOk (root : String) (routes : Dict String SshRoute) (walk : Walk) : Prop :=
  ∀ node ∈ walk.stack.head?, ∀ chain, ExpandsTo root routes node chain →
    chain = joinHops root node walk.front (hopsOf routes node)

/-- The recursive chain of a node with a first hop. -/
theorem ExpandsTo.through_iff {node first : String} (hfirst : FirstHop routes node first)
    {chain : List String} : ExpandsTo root routes node chain
      ↔ ∃ front, ExpandsTo root routes first front
        ∧ chain = joinHops root node front (hopsOf routes node) := by
  constructor
  · intro h
    cases h with
    | direct hnone =>
      obtain ⟨rest, hrest⟩ := hfirst
      rw [hnone] at hrest
      cases hrest
    | through hfirst' hfront =>
      obtain rfl := hfirst.unique hfirst'
      exact ⟨_, hfront, rfl⟩
  · rintro ⟨front, hfront, rfl⟩
    exact .through hfirst hfront

theorem expandsTo_unrouted (h : routes.get? node = none) :
    ExpandsTo root routes node [] := by
  refine .direct ?_
  rw [hopsOf, h]
  rfl

/-- A node on the stack is reached from every node above it. -/
theorem HopStack.reaches (h : HopStack routes (cursor :: stack)) (hnode : node ∈ cursor :: stack) :
    ReflTransGen (FirstHop routes) node cursor := by
  induction stack generalizing cursor with
  | nil =>
    rw [List.mem_singleton.mp hnode]
  | cons below rest ih =>
    obtain ⟨hlink, hrest⟩ := List.isChain_cons_cons.mp h
    rcases List.mem_cons.mp hnode with rfl | hin
    · exact .refl
    · exact (ih hrest hin).tail hlink

/-- A walk keeps the stack linked, and leaves a sound memo and the right front. -/
theorem WalksTo.sound {walk : Walk} (h : WalksTo routes cursor stack expansion walk)
    (hlinked : HopStack routes (cursor :: stack)) (hmemo : SoundMemo root routes expansion.cache) :
    HopStack routes walk.stack ∧ SoundMemo root routes walk.expansion.cache
      ∧ FrontOk root routes walk := by
  induction h with
  | @ended cursor stack expansion hnone =>
    have hdirect : ExpandsTo root routes cursor [] := .direct hnone
    refine ⟨hlinked.tail, hmemo.set fun chain hchain => hdirect.unique hchain, ?_⟩
    intro node hnode chain hchain
    cases stack with
    | nil => cases hnode
    | cons below rest =>
      obtain rfl := Option.mem_some_iff.mp hnode
      have hlink := (List.isChain_cons_cons.mp hlinked).1
      obtain ⟨front, hfront, rfl⟩ := (ExpandsTo.through_iff hlink).mp hchain
      rw [hdirect.unique hfront]
  | @unrouted cursor first stack expansion hfirst hnone =>
    refine ⟨hlinked, hmemo, fun node hnode chain hchain => ?_⟩
    obtain rfl := Option.mem_some_iff.mp hnode
    obtain ⟨front, hfront, rfl⟩ := (ExpandsTo.through_iff hfirst).mp hchain
    rw [(expandsTo_unrouted hnone).unique hfront]
  | @cached cursor first stack expansion front hfirst hfound =>
    refine ⟨hlinked, hmemo, fun node hnode chain hchain => ?_⟩
    obtain rfl := Option.mem_some_iff.mp hnode
    obtain ⟨front', hfront, rfl⟩ := (ExpandsTo.through_iff hfirst).mp hchain
    rw [hmemo first front hfound front' hfront]
  | @cycle cursor first stack expansion hfirst hseen =>
    refine ⟨hlinked, hmemo, fun node hnode chain hchain => ?_⟩
    obtain rfl := Option.mem_some_iff.mp hnode
    -- The cursor is on a cycle, and has no recursive chain.
    obtain ⟨front, hfront, -⟩ := (ExpandsTo.through_iff hfirst).mp hchain
    exact absurd (TransGen.tail' (hlinked.reaches hseen) hfirst) hfront.not_cycle
  | @next cursor first stack expansion walk hfirst _ _ ih =>
    exact ih (List.isChain_cons_cons.mpr ⟨hfirst, hlinked⟩) hmemo

/-- The nodes of the stack are unwound. -/
theorem walksTo_listed {walk : Walk} (h : WalksTo routes cursor stack expansion walk) :
    (∀ node ∈ stack, node ∈ walk.stack)
      ∧ (cursor ∈ walk.stack ∨ walk.expansion.cache.get? cursor = some []) := by
  induction h with
  | ended hnone => exact ⟨fun _ hnode => hnode, .inr (by simp)⟩
  | unrouted hfirst hnone =>
    exact ⟨fun _ hnode => List.mem_cons_of_mem _ hnode, .inl List.mem_cons_self⟩
  | cached hfirst hfound =>
    exact ⟨fun _ hnode => List.mem_cons_of_mem _ hnode, .inl List.mem_cons_self⟩
  | cycle hfirst hseen =>
    exact ⟨fun _ hnode => List.mem_cons_of_mem _ hnode, .inl List.mem_cons_self⟩
  | next hfirst hnew _ ih =>
    exact ⟨fun node hnode => ih.1 node (List.mem_cons_of_mem _ hnode),
      .inl (ih.1 _ List.mem_cons_self)⟩

/-- Unwinding keeps the memo sound. -/
theorem soundMemo_unwindChain (walk : Walk) (hlinked : HopStack routes walk.stack)
    (hmemo : SoundMemo root routes walk.expansion.cache) (hfront : FrontOk root routes walk) :
    SoundMemo root routes
      (unwindChain root routes walk.stack walk.front walk.expansion).cache := by
  obtain ⟨stack, front, expansion⟩ := walk
  dsimp only at hlinked hmemo hfront ⊢
  induction stack generalizing front expansion with
  | nil => exact hmemo
  | cons node rest ih =>
    rw [unwindChain, combineHops_eq]
    have hnode : ∀ chain, ExpandsTo root routes node chain →
        joinHops root node front (hopsOf routes node) = chain :=
      fun chain hchain => (hfront node rfl chain hchain).symm
    refine ih _ _ hlinked.tail (hmemo.set hnode) ?_
    -- The chain of the node is the front of the one below.
    intro below hbelow chain hchain
    cases rest with
    | nil => cases hbelow
    | cons next rest =>
      obtain rfl := Option.mem_some_iff.mp hbelow
      have hlink := (List.isChain_cons_cons.mp hlinked).1
      obtain ⟨front', hfront', rfl⟩ := (ExpandsTo.through_iff hlink).mp hchain
      rw [← hnode front' hfront']
      rfl

/-- What is in the memo stays in it, and so do the nodes of the stack. -/
theorem get?_unwindChain_isSome (stack front : List String) (expansion : Expansion)
    (h : node ∈ stack ∨ (expansion.cache.get? node).isSome = true) :
    ((unwindChain root routes stack front expansion).cache.get? node).isSome = true := by
  induction stack generalizing front expansion with
  | nil => exact h.elim (fun hin => absurd hin List.not_mem_nil) id
  | cons head rest ih =>
    rw [unwindChain]
    refine ih _ _ ?_
    by_cases hhead : node = head
    · right
      simp [hhead]
    · rcases h with hin | hsome
      · exact .inl ((List.mem_cons.mp hin).resolve_left hhead)
      · right
        simpa [hhead] using hsome

/-! ### The queries -/

/-- One call of `expanded_hops` returns: it reads the memo, or the loop ends and the unwound memo
has the host. -/
inductive Expands (root : String) (routes : Dict String SshRoute) (host : String)
    (expansion : Expansion) : List String → Expansion → Prop where
  | known {hops : List String} (h : expansion.cache.get? host = some hops) :
      Expands root routes host expansion hops expansion
  | walked {hops : List String} {walk : Walk} (hnew : expansion.cache.get? host = none)
      (hwalk : WalksTo routes host [] expansion walk)
      (hget : (unwindChain root routes walk.stack walk.front walk.expansion).cache.get? host
        = some hops) :
      Expands root routes host expansion hops
        (unwindChain root routes walk.stack walk.front walk.expansion)

theorem expands_expandedHops (root : String) (routes : Dict String SshRoute) (host : String)
    (expansion : Expansion) :
    Expands root routes host expansion (expandedHops root routes host expansion).1
      (expandedHops root routes host expansion).2 := by
  unfold expandedHops
  cases hfound : expansion.cache.get? host with
  | some hops => exact .known hfound
  | none =>
    dsimp only
    have hwalk := walksTo_walkChain (routes.entries.length + 1) host [] expansion
      (List.nodup_singleton host) (fun _ hnode => absurd hnode List.not_mem_nil)
      (Nat.lt_succ_self _)
    have hsome : ((unwindChain root routes
        (walkChain routes (routes.entries.length + 1) host [] expansion).stack
        (walkChain routes (routes.entries.length + 1) host [] expansion).front
        (walkChain routes (routes.entries.length + 1) host [] expansion).expansion).cache.get?
          host).isSome = true := by
      refine get?_unwindChain_isSome _ _ _ ?_
      rcases (walksTo_listed hwalk).2 with hin | hget
      · exact .inl hin
      · right
        rw [hget]
        rfl
    obtain ⟨hops, hhops⟩ := Option.isSome_iff_exists.mp hsome
    rw [Dict.getD_eq, hhops]
    exact .walked hfound hwalk hhops

theorem Expands.sound {host : String} {expansion expansion' : Expansion} {hops : List String}
    (h : Expands root routes host expansion hops expansion')
    (hmemo : SoundMemo root routes expansion.cache) :
    SoundMemo root routes expansion'.cache
      ∧ ∀ chain, ExpandsTo root routes host chain → hops = chain := by
  cases h with
  | known hfound => exact ⟨hmemo, hmemo host hops hfound⟩
  | @walked walk hnew hwalk hget =>
    obtain ⟨hlinked, hmemo', hfront⟩ := hwalk.sound (List.isChain_singleton host) hmemo
    have hunwound := soundMemo_unwindChain walk hlinked hmemo' hfront
    exact ⟨hunwound, hunwound host hops hget⟩

/-- The memo after a sequence of queries. -/
def expandEach (root : String) (routes : Dict String SshRoute) (hosts : List String) : Expansion :=
  hosts.foldl (fun expansion host => (expandedHops root routes host expansion).2) {}

theorem soundMemo_expandEach (hosts : List String) :
    SoundMemo root routes (expandEach root routes hosts).cache := by
  unfold expandEach
  induction hosts using List.reverseRecOn with
  | nil =>
    intro node hops hfound
    cases hfound
  | append_singleton hosts host ih =>
    rw [List.foldl_append]
    exact ((expands_expandedHops root routes host _).sound ih).1

/-- Out of an empty memo, the walk of a host shows its recursive chain, if it meets no cycle. -/
theorem WalksTo.expands {walk : Walk} (h : WalksTo routes cursor stack expansion walk)
    (hlinked : HopStack routes (cursor :: stack)) (hempty : expansion.cache = ∅)
    (hacyclic : AcyclicFrom routes cursor) : ∃ chain, ExpandsTo root routes cursor chain := by
  induction h with
  | ended hnone => exact ⟨[], .direct hnone⟩
  | unrouted hfirst hnone => exact ⟨_, .through hfirst (expandsTo_unrouted hnone)⟩
  | cached hfirst hfound =>
    rw [hempty] at hfound
    cases hfound
  | cycle hfirst hseen =>
    exact absurd (TransGen.tail' (hlinked.reaches hseen) hfirst)
      (hacyclic _ (.single hfirst))
  | next hfirst _ _ ih =>
    obtain ⟨chain, hchain⟩ := ih (List.isChain_cons_cons.mpr ⟨hfirst, hlinked⟩) hempty
      fun other hother => hacyclic other (hother.head hfirst)
    exact ⟨_, .through hfirst hchain⟩

theorem AcyclicFrom.expands {host : String} (h : AcyclicFrom routes host) :
    ∃ chain, ExpandsTo root routes host chain :=
  (walksTo_walkChain (routes.entries.length + 1) host [] {} (List.nodup_singleton host)
    (fun _ hnode => absurd hnode List.not_mem_nil) (Nat.lt_succ_self _)).expands
    (List.isChain_singleton host) rfl h

/-- After any queries, the expansion of a host ends, and a host whose first hops lead into no cycle
has the chain of the recursion. -/
theorem expandedHops_eq_recursive (root : String) (routes : Dict String SshRoute)
    (earlier : List String) (host : String) :
    Expands root routes host (expandEach root routes earlier)
        (expandedHops root routes host (expandEach root routes earlier)).1
        (expandedHops root routes host (expandEach root routes earlier)).2
      ∧ (AcyclicFrom routes host → ∀ chain, ExpandsTo root routes host chain
        ↔ chain = (expandedHops root routes host (expandEach root routes earlier)).1) := by
  have hexpands := expands_expandedHops root routes host (expandEach root routes earlier)
  refine ⟨hexpands, fun hacyclic chain => ?_⟩
  have hsound := (hexpands.sound (soundMemo_expandEach earlier)).2
  constructor
  · intro hchain
    exact (hsound chain hchain).symm
  · rintro rfl
    obtain ⟨chain, hchain⟩ := @AcyclicFrom.expands root routes host hacyclic
    rw [hsound chain hchain]
    exact hchain

/-- A node with a recursive chain leads into no cycle. -/
theorem ExpandsTo.acyclicFrom {host : String} {chain : List String}
    (h : ExpandsTo root routes host chain) : AcyclicFrom routes host := by
  intro other hreach
  have hother : ∃ chain, ExpandsTo root routes other chain := by
    induction hreach with
    | refl => exact ⟨chain, h⟩
    | tail _ hstep ih =>
      obtain ⟨below, hbelow⟩ := ih
      obtain ⟨front, hfront, -⟩ := (ExpandsTo.through_iff hstep).mp hbelow
      exact ⟨front, hfront⟩
  obtain ⟨found, hfound⟩ := hother
  exact hfound.not_cycle

/-- Two gateways that jump through each other, and a host behind a relay. -/
private def crossedRoutes : Dict String SshRoute :=
  Dict.ofList
    [("east", { kind := "proxyjump", hops := ["west"] }),
      ("west", { kind := "proxyjump", hops := ["east"] }),
      ("gpu-1", { kind := "proxyjump", hops := ["relay", "hub", "east"] }),
      ("relay", { kind := "proxyjump", hops := ["edge", "hub"] })]

/-- The host has its chain, also after the crossed gateways were expanded. -/
theorem expandedHops_eq_recursive_crossed :
    ExpandsTo "hub" crossedRoutes "gpu-1" ["edge", "relay", "east"] := by
  have hedge : FirstHop crossedRoutes "relay" "edge" := ⟨["hub"], by decide +kernel⟩
  have hrelay : FirstHop crossedRoutes "gpu-1" "relay" := ⟨["hub", "east"], by decide +kernel⟩
  have hchain : ExpandsTo "hub" crossedRoutes "gpu-1" _ :=
    .through hrelay (.through hedge (.direct (by decide +kernel)))
  have hall := (expandedHops_eq_recursive "hub" crossedRoutes ["west", "east"] "gpu-1").2
    hchain.acyclicFrom ["edge", "relay", "east"]
  exact hall.mpr (by decide +kernel)

end Mocop
