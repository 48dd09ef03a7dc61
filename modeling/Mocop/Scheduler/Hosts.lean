import Mocop.Scheduler.State

/-!
# `Mocop.Scheduler.Hosts`: the incarnations of the host table

Installing hosts keeps the incarnation of a host that stays and gives a new one to every host
that is added. Samples and retries change no incarnation.

`HostTable.Sound` says that every incarnation was given out before the next one, and that a
sample is kept with the incarnation it was probed for. `HostTable.Extends` relates a table to
a later one: no incarnation that was given out is given to another life of a host.
-/

set_option autoImplicit false

namespace Mocop.Scheduler

namespace HostTable

/-- Adding a host changes nothing when it is there, and gives it the next incarnation when it is
not. -/
theorem addServer_cases (table : HostTable) (host : String) :
    ((table.incarnation host).isSome = true ∧ table.addServer host = table)
      ∨ (table.incarnation host = none ∧ table.addServer host =
        { servers := table.servers.set host { incarnation := table.nextIncarnation }
          nextIncarnation := table.nextIncarnation + 1 }) := by
  unfold addServer incarnation
  cases hget : table.servers.get? host with
  | none => exact .inr ⟨rfl, by rw [if_neg (by rw [Dict.contains_eq, hget]; exact nofun)]⟩
  | some server => exact .inl ⟨rfl, by rw [if_pos (by rw [Dict.contains_eq, hget]; rfl)]⟩

/-- The incarnations after adding a host. -/
theorem incarnation_addServer (table : HostTable) (host other : String) :
    (table.addServer host).incarnation other
      = if other = host ∧ table.incarnation host = none then some table.nextIncarnation
        else table.incarnation other := by
  rcases addServer_cases table host with ⟨hsome, hadd⟩ | ⟨hnone, hadd⟩
  · rw [hadd, if_neg]
    rintro ⟨-, hnone⟩
    rw [hnone] at hsome
    cases hsome
  · rw [hadd, incarnation, Dict.get?_set]
    by_cases heq : other = host
    · rw [if_pos heq, if_pos ⟨heq, hnone⟩]
      rfl
    · rw [if_neg heq, if_neg (fun h => heq h.1)]
      rfl

variable {table : HostTable}

/-- Installing hosts keeps the incarnation of a host that stays, and every other host that the
table has afterwards is installed and was not there. -/
theorem incarnation_setHosts {hosts : List String} {host : String} {n : ℕ}
    (h : (table.setHosts hosts).incarnation host = some n) :
    table.incarnation host = some n ∨ (host ∈ hosts ∧ table.incarnation host = none) := by
  have hfold : ∀ (added : List String) (kept : HostTable),
      (added.foldl addServer kept).incarnation host = some n →
      kept.incarnation host = some n ∨ (host ∈ added ∧ kept.incarnation host = none) := by
    intro added
    induction added with
    | nil => exact fun kept hin => .inl hin
    | cons first rest ih =>
      intro kept hin
      rcases ih _ hin with hin | ⟨hmem, hnone⟩
      · rw [incarnation_addServer] at hin
        split at hin
        · rename_i hfirst
          exact .inr ⟨hfirst.1 ▸ List.mem_cons_self, hfirst.1 ▸ hfirst.2⟩
        · exact .inl hin
      · -- A host that is missing after the first one was added was missing before.
        rw [incarnation_addServer] at hnone
        split at hnone
        · cases hnone
        · exact .inr ⟨List.mem_cons_of_mem _ hmem, hnone⟩
  have hremoved : ∀ m, ({ table with
      servers := table.servers.filterKeys (· ∈ hosts) } : HostTable).incarnation host = some m →
      table.incarnation host = some m := by
    intro m hm
    rw [incarnation, Dict.get?_filterKeys] at hm
    split at hm
    · exact hm
    · cases hm
  rcases hfold hosts _ h with hin | ⟨hmem, hnone⟩
  · exact .inl (hremoved n hin)
  · refine .inr ⟨hmem, ?_⟩
    rw [incarnation, Dict.get?_filterKeys, if_pos (decide_eq_true hmem)] at hnone
    exact hnone

/-- A record of the same incarnation in place of another changes no incarnation. -/
theorem incarnation_set {host : String} {server changed : ServerRecord}
    (hget : table.servers.get? host = some server)
    (hsame : changed.incarnation = server.incarnation) (other : String) :
    ({ table with servers := table.servers.set host changed } : HostTable).incarnation other
      = table.incarnation other := by
  rw [incarnation, Dict.get?_set]
  split
  · rename_i heq
    rw [incarnation, heq, hget]
    exact congrArg some hsame
  · rfl

/-- A sample changes no incarnation. -/
theorem incarnation_apply (table : HostTable) (sample : Completed) (retry : Option ℚ)
    (host : String) : (table.apply sample retry).incarnation host = table.incarnation host := by
  unfold apply
  cases hget : table.servers.get? sample.result.host with
  | none => rfl
  | some server =>
    dsimp only
    split
    · rfl
    · refine incarnation_set hget ?_ host
      rfl

/-- Nor does another retry. -/
theorem incarnation_rescheduleRetry (table : HostTable) (host : String) (seconds : ℚ)
    (other : String) :
    (table.rescheduleRetry host seconds).incarnation other = table.incarnation other := by
  unfold rescheduleRetry
  cases hget : table.servers.get? host with
  | none => rfl
  | some server =>
    dsimp only
    split
    · rfl
    · refine incarnation_set hget ?_ other
      rfl

/-! ### Lives of a host -/

/-- Incarnations are given out in order, and a sample is kept with its own. -/
structure Sound (table : HostTable) : Prop where
  fresh : ∀ host server, table.servers.get? host = some server →
    server.incarnation < table.nextIncarnation
  applied : ∀ host server, table.servers.get? host = some server →
    ∀ sample ∈ server.applied, sample.host = host ∧ sample.incarnation = server.incarnation

/-- A later table: a host with an incarnation that was given out before has had it since. -/
structure Extends (table later : HostTable) : Prop where
  le : table.nextIncarnation ≤ later.nextIncarnation
  kept : ∀ host n, n < table.nextIncarnation → later.incarnation host = some n →
    table.incarnation host = some n

theorem Extends.refl (table : HostTable) : Extends table table := ⟨le_rfl, fun _ _ _ h => h⟩

theorem Extends.trans {first second third : HostTable} (h : Extends first second)
    (h' : Extends second third) : Extends first third where
  le := h.le.trans h'.le
  kept := fun host n hn hget => h.kept host n hn (h'.kept host n (lt_of_lt_of_le hn h.le) hget)

/-- Tables with the same incarnations. -/
theorem Extends.of_eq {table later : HostTable}
    (hnext : later.nextIncarnation = table.nextIncarnation)
    (hsame : ∀ host, later.incarnation host = table.incarnation host) : Extends table later :=
  ⟨hnext.ge, fun host _ _ hget => (hsame host).symm.trans hget⟩

/-- A record of the same incarnation is put in place of another. -/
theorem Sound.set (h : table.Sound) {host : String} {server changed : ServerRecord}
    (hget : table.servers.get? host = some server)
    (hsame : changed.incarnation = server.incarnation)
    (happlied : ∀ sample ∈ changed.applied,
      sample.host = host ∧ sample.incarnation = changed.incarnation) :
    ({ table with servers := table.servers.set host changed } : HostTable).Sound
      ∧ Extends table { table with servers := table.servers.set host changed } := by
  refine ⟨⟨?_, ?_⟩, Extends.of_eq rfl (incarnation_set hget hsame)⟩
  · intro other record hother
    rw [Dict.get?_set] at hother
    split at hother
    · cases hother
      rw [hsame]
      exact h.fresh host server hget
    · exact h.fresh other record hother
  · intro other record hother
    rw [Dict.get?_set] at hother
    split at hother
    · rename_i heq
      cases hother
      rw [heq]
      exact happlied
    · exact h.applied other record hother

/-- A host is added as a server without samples, unless it is there. -/
theorem addServer_spec (h : table.Sound) (host : String) :
    (table.addServer host).Sound ∧ Extends table (table.addServer host)
      ∧ ∀ other, ((table.addServer host).incarnation other).isSome
        ↔ other = host ∨ (table.incarnation other).isSome := by
  have hmem : ∀ other, ((table.addServer host).incarnation other).isSome
      ↔ other = host ∨ (table.incarnation other).isSome := by
    intro other
    rw [incarnation_addServer]
    by_cases heq : other = host
    · subst heq
      cases table.incarnation other <;> simp
    · simp [heq]
  rcases addServer_cases table host with ⟨-, hadd⟩ | ⟨-, hadd⟩
  · rw [hadd] at hmem ⊢
    exact ⟨h, Extends.refl table, hmem⟩
  · refine ⟨?_, ?_, hmem⟩
    · rw [hadd]
      refine ⟨?_, ?_⟩
      · intro other server hget
        rw [Dict.get?_set] at hget
        split at hget
        · cases hget
          exact Nat.lt_succ_self _
        · exact lt_trans (h.fresh other server hget) (Nat.lt_succ_self _)
      · intro other server hget sample hsample
        rw [Dict.get?_set] at hget
        split at hget
        · cases hget
          cases hsample
        · exact h.applied other server hget sample hsample
    · refine ⟨by rw [hadd]; exact Nat.le_succ _, ?_⟩
      intro other n hn hget
      rw [incarnation_addServer] at hget
      split at hget
      · -- The new incarnation was not given out before.
        have hnew : table.nextIncarnation = n := Option.some.inj hget
        omega
      · exact hget

/-- Installing hosts: exactly they are monitored afterwards. -/
theorem setHosts_spec (h : table.Sound) (hosts : List String) :
    (table.setHosts hosts).Sound ∧ Extends table (table.setHosts hosts)
      ∧ ∀ host, ((table.setHosts hosts).incarnation host).isSome ↔ host ∈ hosts := by
  have hfold : ∀ (added : List String) (kept : HostTable), kept.Sound →
      (added.foldl addServer kept).Sound ∧ Extends kept (added.foldl addServer kept)
        ∧ ∀ host, ((added.foldl addServer kept).incarnation host).isSome
          ↔ host ∈ added ∨ (kept.incarnation host).isSome := by
    intro added
    induction added with
    | nil => exact fun kept hkept => ⟨hkept, Extends.refl kept, fun host => by simp⟩
    | cons first rest ih =>
      intro kept hkept
      obtain ⟨hfirst, hextends, hmem⟩ := addServer_spec hkept first
      obtain ⟨hrest, hextends', hmem'⟩ := ih _ hfirst
      refine ⟨hrest, hextends.trans hextends', ?_⟩
      intro host
      rw [List.foldl_cons, hmem', hmem, List.mem_cons]
      tauto
  have hget : ∀ host, ({ table with
      servers := table.servers.filterKeys (· ∈ hosts) } : HostTable).servers.get? host
      = if host ∈ hosts then table.servers.get? host else none := by
    intro host
    rw [Dict.get?_filterKeys]
    by_cases hmem : host ∈ hosts
    · simp [hmem]
    · simp [hmem]
  have hremoved : ({ table with
      servers := table.servers.filterKeys (· ∈ hosts) } : HostTable).Sound := by
    refine ⟨?_, ?_⟩
    · intro host server hserver
      rw [hget] at hserver
      split at hserver
      · exact h.fresh host server hserver
      · cases hserver
    · intro host server hserver
      rw [hget] at hserver
      split at hserver
      · exact h.applied host server hserver
      · cases hserver
  obtain ⟨hsound, hextends, hmem⟩ := hfold hosts _ hremoved
  refine ⟨hsound, ⟨hextends.le, ?_⟩, ?_⟩
  · intro host n hn hlater
    have hkept := hextends.kept host n hn hlater
    rw [incarnation, hget] at hkept
    split at hkept
    · exact hkept
    · cases hkept
  · intro host
    refine (hmem host).trans ⟨?_, .inl⟩
    rintro (hin | hsome)
    · exact hin
    · rw [incarnation, hget] at hsome
      by_contra hnot
      rw [if_neg hnot] at hsome
      cases hsome

/-- A sample that is taken in is kept with the incarnation it was probed for. -/
theorem Sound.apply (h : table.Sound) {sample : Completed}
    (hhost : sample.result.host = sample.host) (retry : Option ℚ) :
    (table.apply sample retry).Sound ∧ Extends table (table.apply sample retry) := by
  unfold HostTable.apply
  cases hget : table.servers.get? sample.result.host with
  | none => exact ⟨h, Extends.refl table⟩
  | some server =>
    dsimp only
    split
    · exact ⟨h, Extends.refl table⟩
    · rename_i hsame
      rw [not_not] at hsame
      refine h.set hget rfl ?_
      intro earlier hearlier
      rcases List.mem_append.mp hearlier with hold | hnew
      · exact h.applied _ server hget earlier hold
      · rw [List.mem_singleton.mp hnew]
        exact ⟨hhost.symm, hsame.symm⟩

/-- Another retry changes no sample. -/
theorem Sound.rescheduleRetry (h : table.Sound) (host : String) (seconds : ℚ) :
    (table.rescheduleRetry host seconds).Sound
      ∧ Extends table (table.rescheduleRetry host seconds) := by
  unfold HostTable.rescheduleRetry
  cases hget : table.servers.get? host with
  | none => exact ⟨h, Extends.refl table⟩
  | some server =>
    dsimp only
    split
    · exact ⟨h, Extends.refl table⟩
    · exact h.set hget rfl (h.applied host server hget)

end HostTable

end Mocop.Scheduler
