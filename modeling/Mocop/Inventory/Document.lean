import Mocop.Lib.Dict
import Mocop.Lib.Text
import Mathlib.Algebra.Order.Ring.Rat

/-!
# `Mocop.Inventory.Document`: the configuration document

The sections of the document that name hosts, as the JSON file holds them: the texts are not
trimmed. The value type `V` stands for the JSON values that no code here looks into. An
absent section is an empty one.

`MonitorConfig` is what the loader makes of a document: trimmed names without duplicates.
-/

set_option autoImplicit false

namespace Mocop

/-! ### Host aliases -/

/-- An ASCII letter or digit. -/
def isAliasStart (c : Char) : Bool :=
  let n := c.toNat
  (48 ≤ n && n ≤ 57) || (65 ≤ n && n ≤ 90) || (97 ≤ n && n ≤ 122)

/-- A character of an alias: also a dot, an underscore or a hyphen. -/
def isAliasChar (c : Char) : Bool := isAliasStart c || c == '.' || c == '_' || c == '-'

/-- Whether a text is a safe host alias. -/
def isSafeAlias (value : String) : Bool :=
  match value.toList with
  | [] => false
  | first :: rest => isAliasStart first && rest.all isAliasChar && rest.length ≤ 252

/-- No character of an alias is blank. -/
theorem isPySpace_of_isAliasChar {c : Char} (h : isAliasChar c = true) : isPySpace c = false := by
  have hcases : isAliasStart c = true ∨ c.toNat = 46 ∨ c.toNat = 95 ∨ c.toNat = 45 := by
    simp only [isAliasChar, Bool.or_eq_true, beq_iff_eq] at h
    rcases h with ((h | rfl) | rfl) | rfl
    · exact .inl h
    · exact .inr (.inl rfl)
    · exact .inr (.inr (.inl rfl))
    · exact .inr (.inr (.inr rfl))
  simp only [isAliasStart, Bool.or_eq_true, Bool.and_eq_true, decide_eq_true_eq] at hcases
  simp only [isPySpace, Bool.or_eq_false_iff, Bool.and_eq_false_iff, decide_eq_false_iff_not,
    beq_eq_false_iff_ne]
  omega

/-- A safe alias has no surrounding blanks. -/
theorem pyStrip_of_isSafeAlias {value : String} (h : isSafeAlias value = true) :
    pyStrip value = value := by
  refine pyStrip_of_all fun c hc => isPySpace_of_isAliasChar ?_
  unfold isSafeAlias at h
  cases hchars : value.toList with
  | nil =>
    rw [hchars] at hc
    cases hc
  | cons first rest =>
    rw [hchars] at h hc
    simp only [Bool.and_eq_true, List.all_eq_true] at h
    rcases List.mem_cons.mp hc with rfl | hmem
    · rw [isAliasChar, h.1.1]
      rfl
    · exact h.1.2 c hmem

/-! ### The document -/

/-- A topology link. -/
structure TopologyLink where
  source : String
  target : String
  transport : String
  label : Option String
  deriving DecidableEq

/-- The topology section. -/
structure TopologyDocument where
  root : String
  links : List TopologyLink
  deriving DecidableEq

/-- An acknowledgement or a silence of one condition. -/
structure IncidentActionDocument where
  host : String
  conditionKey : String
  action : String
  until_ : String
  reason : String
  incidentStartedAt : Option String
  deriving DecidableEq

/-- The incident overrides of hosts and of groups. -/
structure OverridesDocument (V : Type) where
  hosts : Dict String V
  groups : Dict String V

/-- The document. `rest` are the settings that name no host. -/
structure ConfigDocument (V : Type) where
  autoDiscover : Bool
  hosts : List String
  excludeHosts : List String
  localHost : Option String
  topology : Option TopologyDocument
  expectedGpuCounts : Dict String ℤ
  hostOverrides : Dict String V
  maintenanceWindows : Dict String V
  hostGroups : Dict String String
  incidentOverrides : OverridesDocument V
  incidentActions : List IncidentActionDocument
  rest : Dict String V

/-- A document that only lists hosts. -/
def ConfigDocument.listing (hosts : List String) : ConfigDocument Unit :=
  ⟨false, hosts, [], none, none, ∅, ∅, ∅, ∅, ⟨∅, ∅⟩, [], ∅⟩

/-- The links of the topology. -/
def ConfigDocument.links {V : Type} (doc : ConfigDocument V) : List TopologyLink :=
  (doc.topology.map (·.links)).getD []

/-- The loaded configuration. -/
structure MonitorConfig (V : Type) where
  autoDiscover : Bool
  hosts : List String
  excludeHosts : List String
  localHost : Option String
  topology : Option TopologyDocument
  expectedGpuCounts : List (String × ℤ)
  hostOverrides : List (String × V)
  maintenanceWindows : List (String × V)
  hostGroups : List (String × String)
  hostIncidentOverrides : List (String × V)
  groupIncidentOverrides : List (String × V)
  incidentActions : List IncidentActionDocument

end Mocop
