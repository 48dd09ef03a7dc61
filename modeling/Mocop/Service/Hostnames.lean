import Mocop.Lib.IpAddresses
import Mocop.Lib.Text
import Mathlib.Data.List.TakeWhile

/-!
# `Mocop.Service.Hostnames`: the canonical hostname of a Host or Origin value

`normalizeWebHostname` gives the hostname that every trust comparison uses. It wraps a bare IPv6
literal in brackets, splits the value as the authority of a URL, and accepts an IP literal or a
DNS name.

Which spellings of one host it brings together is the subject of `Mocop.Service.CanonicalNames`.
DNS names lose their case and a final dot, and brackets are taken off. An IPv6 address keeps its
text but for the case of the digits: its forms with other zeros or another gap stay apart. A DNS
name with its dot is measured with the dot, so the longest names are accepted without it only. The
zone of an IPv6 literal may be any text: `Accepted` says which texts may stand in brackets, and a
zone in brackets may end with a blank, which does not survive a second normalisation.
-/

set_option autoImplicit false

namespace Mocop.Hostnames

/-- What Python knows about Unicode texts, and the check of `urlsplit` on an authority with
brackets, which differs between the versions of Python. -/
structure UrlRules where
  /-- `text.lower()` -/
  lower : List Char → List Char
  /-- `unicodedata.category(character).startswith("C")` -/
  isOther : Char → Bool
  /-- whether the form NFKC of a character has one of `/?#@:` -/
  unsafeForm : Char → Bool
  bracketsAllowed : List Char → Bool
  lower_ascii : ∀ text, (∀ c ∈ text, c.toNat < 128) → lower text = text.map Char.toLower
  ascii_of_lower : ∀ text, (∀ c ∈ lower text, Ip.isIpChar c = true) → ∀ c ∈ text, c.toNat < 128
  not_upper : ∀ text, ∀ c ∈ lower text, ¬(65 ≤ c.toNat ∧ c.toNat ≤ 90)
  mem_of_lower : ∀ text, ∀ c ∈ lower text, c.toNat < 128 → ¬(97 ≤ c.toNat ∧ c.toNat ≤ 122) →
    c ∈ text
  isOther_ascii : ∀ c : Char, 32 < c.toNat → c.toNat < 127 → isOther c = false
  unsafe_ascii : ∀ c : Char, c.toNat < 128 → c ∉ ['/', '?', '#', '@', ':'] → unsafeForm c = false
  brackets_ipv6 : ∀ text value zone, ']' ∉ text → Ip.ipAddress text = some (.v6 value zone) →
    bracketsAllowed ('[' :: text ++ [']']) = true

/-! ### Splitting an authority -/

/-- The texts before and after the first separator. -/
def cutAt (separator : Char) (text : List Char) : List Char × List Char :=
  (text.takeWhile (· ≠ separator), (text.dropWhile (· ≠ separator)).drop 1)

/-- The text after the last separator. -/
def afterLast (separator : Char) (text : List Char) : List Char :=
  (text.reverse.takeWhile (· ≠ separator)).reverse

/-- Whether a character ends an authority. -/
def isDelimiter (c : Char) : Bool := c == '/' || c == '?' || c == '#'

/-- The parts of `//netloc/path?query#fragment`. -/
structure SplitResult where
  netloc : List Char
  path : List Char
  query : List Char
  fragment : List Char

/-- The hostname, as it is written, and the port text of an authority. -/
def hostinfo (netloc : List Char) : List Char × List Char :=
  let info := afterLast '@' netloc
  if '[' ∈ info then
    let bracketed := cutAt ']' (cutAt '[' info).2
    (bracketed.1, (cutAt ':' bracketed.2).2)
  else cutAt ':' info

/-- `parsed.port`: an error, no port, or a port. -/
def port (netloc : List Char) : Option (Option ℕ) :=
  let text := (hostinfo netloc).2
  if text = [] then some none
  else if text.all Char.isDigit ∧ Nat.ofDigitChars 10 text 0 ≤ 65535 then
    some (some (Nat.ofDigitChars 10 text 0))
  else none

section
variable (rules : UrlRules)

/-- `_checknetloc` -/
def checkNetloc (netloc : List Char) : Bool :=
  netloc.all (fun c => c.toNat < 128)
    || (netloc.filter fun c => c ∉ ['@', ':', '#', '?']).all fun c => !rules.unsafeForm c

/-- `urlsplit("//" + candidate)` of a text without tabs and line ends. -/
def urlsplit (candidate : List Char) : Option SplitResult :=
  let netloc := candidate.takeWhile (!isDelimiter ·)
  let rest := candidate.dropWhile (!isDelimiter ·)
  if ('[' ∈ netloc ∧ ']' ∉ netloc) ∨ (']' ∈ netloc ∧ '[' ∉ netloc) then none
  else if '[' ∈ netloc ∧ ']' ∈ netloc ∧ rules.bracketsAllowed netloc = false then none
  else
    let fragment := cutAt '#' rest
    let query := cutAt '?' fragment.1
    if checkNetloc rules netloc then some ⟨netloc, query.1, query.2, fragment.2⟩ else none

/-- A hostname in lower case; the zone keeps its case. -/
def lowered (text : List Char) : List Char := rules.lower (Ip.host text) ++ Ip.zone text

/-- `parsed.hostname` -/
def hostname (netloc : List Char) : Option (List Char) :=
  let text := (hostinfo netloc).1
  if text = [] then none else some (lowered rules text)

/-! ### Normalisation -/

/-- A letter or a digit. -/
def isLabelEnd (c : Char) : Bool := c.isAlphanum

/-- `_LABEL.fullmatch(label)` -/
def matchesLabel (label : List Char) : Bool :=
  label.head?.any isLabelEnd && label.getLast?.any isLabelEnd
    && label.all fun c => isLabelEnd c || c == '_' || c == '-'

/-- `hostname.removesuffix(".")` -/
def removeDot (text : List Char) : List Char :=
  if text.getLast? = some '.' then text.dropLast else text

/-- Whether a text is an IP address. -/
def isAddress (text : List Char) : Bool := (Ip.ipAddress text).isSome

/-- Whether the labels of a name are labels of at most 63 characters. -/
def isDnsName (name : List Char) : Bool :=
  (name.splitOn '.').all fun label => label.length ≤ 63 && matchesLabel label

/-- The canonical text of a hostname without brackets. -/
def plainName (text : List Char) : Option (List Char) :=
  if isAddress text then some text
  else if 253 < text.length ∨ text.all (fun c => c.toNat < 128) = false then none
  else if isDnsName (removeDot text) then some (removeDot text)
  else none

/-- The hostname of an authority. -/
def normalizeAuthority (candidate : List Char) (allowPort : Bool) : Option (List Char) := do
  let parsed ← urlsplit rules candidate
  let port ← port parsed.netloc
  let hostname ← hostname rules parsed.netloc
  if '@' ∈ parsed.netloc ∨ parsed.path ≠ [] ∨ parsed.query ≠ [] ∨ parsed.fragment ≠ []
      ∨ (port.isSome ∧ allowPort = false) then none
  else if '[' ∈ parsed.netloc then
    if isAddress hostname then some hostname else none
  else plainName hostname

/-- A bare IPv6 literal in brackets. -/
def bracketed (candidate : List Char) : List Char :=
  if 2 ≤ candidate.count ':' ∧ candidate.head? ≠ some '[' then '[' :: candidate ++ [']']
  else candidate

/-- `normalize_web_hostname` of a text. -/
def normalizeWebHostname (value : String) (allowPort : Bool) : Option String :=
  let candidate := (pyStrip value).toList
  if candidate = [] ∨ 260 < candidate.length ∨ candidate.any rules.isOther = true then none
  else (normalizeAuthority rules (bracketed candidate) allowPort).map String.ofList

/-! ### Splitting without a rest -/

variable {rules}

variable {text : List Char} {c : Char} {name : Option (List Char)}

/-- The text before a separator that is not there. -/
theorem cutAt_of_not_mem {separator : Char} (h : separator ∉ text) :
    cutAt separator text = (text, []) := by
  have hall : ∀ c ∈ text, decide (c ≠ separator) = true := by
    intro c hc
    exact decide_eq_true fun heq => h (heq ▸ hc)
  rw [cutAt, List.takeWhile_eq_self_iff.mpr hall, List.dropWhile_eq_nil_iff.mpr hall]
  rfl

/-- The texts around the first separator. -/
theorem cutAt_append {separator : Char} {text rest : List Char} (h : separator ∉ text) :
    cutAt separator (text ++ separator :: rest) = (text, rest) := by
  have hall : ∀ c ∈ text, decide (c ≠ separator) = true := by
    intro c hc
    exact decide_eq_true fun heq => h (heq ▸ hc)
  rw [cutAt, List.takeWhile_append_of_pos hall, List.dropWhile_append_of_pos hall]
  simp

/-- The text after a last separator that is not there. -/
theorem afterLast_of_not_mem {separator : Char} (h : separator ∉ text) :
    afterLast separator text = text := by
  have hall : ∀ c ∈ text.reverse, decide (c ≠ separator) = true := by
    intro c hc
    exact decide_eq_true fun heq => h (heq ▸ List.mem_reverse.mp hc)
  rw [afterLast, List.takeWhile_eq_self_iff.mpr hall, List.reverse_reverse]

/-- An authority without a rest is split into itself. -/
theorem urlsplit_netloc {netloc : List Char} (h : ∀ c ∈ netloc, isDelimiter c = false) :
    urlsplit rules netloc
      = if ('[' ∈ netloc ∧ ']' ∉ netloc) ∨ (']' ∈ netloc ∧ '[' ∉ netloc) then none
        else if '[' ∈ netloc ∧ ']' ∈ netloc ∧ rules.bracketsAllowed netloc = false then none
        else if checkNetloc rules netloc then some ⟨netloc, [], [], []⟩ else none := by
  have hall : ∀ c ∈ netloc, (!isDelimiter c) = true := fun c hc => by simp [h c hc]
  rw [urlsplit, List.takeWhile_eq_self_iff.mpr hall, List.dropWhile_eq_nil_iff.mpr hall]
  rfl

/-- The characters of a text in brackets. -/
theorem forall_mem_wrapped {P : Char → Prop} :
    (∀ c ∈ '[' :: text ++ [']'], P c) ↔ P '[' ∧ (∀ c ∈ text, P c) ∧ P ']' := by
  simp only [List.cons_append, List.forall_mem_cons, List.forall_mem_append, List.not_mem_nil,
    false_implies, implies_true, and_true]

/-- The text between brackets up to the first closing one. -/
def literal (text : List Char) : List Char := text.takeWhile (· ≠ ']')

/-- A text that may stand in brackets: it splits no authority, no port follows a bracket in it, and
up to a closing bracket it is an address. -/
structure Admitted (rules : UrlRules) (text : List Char) : Prop where
  delimiters : ∀ c ∈ text, isDelimiter c = false
  at' : '@' ∉ text
  allowed : rules.bracketsAllowed ('[' :: text ++ [']']) = true
  checked : checkNetloc rules ('[' :: text ++ [']']) = true
  portless : ':' ∉ text.dropWhile (· ≠ ']')
  address : isAddress (lowered rules (literal text)) = true

/-- A character that is not cut away is before the separator or after it. -/
theorem mem_cutAt {separator c : Char} (hc : c ∈ text) (hne : c ≠ separator) :
    c ∈ (cutAt separator text).1 ∨ c ∈ (cutAt separator text).2 := by
  rw [← @List.takeWhile_append_dropWhile _ (· ≠ separator) text, List.mem_append] at hc
  refine hc.imp_right fun hafter => ?_
  show c ∈ (text.dropWhile (· ≠ separator)).drop 1
  have hhead := List.head?_dropWhile_not (fun c : Char => decide (c ≠ separator)) text
  cases hrest : text.dropWhile (· ≠ separator) with
  | nil =>
    rw [hrest] at hafter
    cases hafter
  | cons first rest =>
    rw [hrest] at hafter hhead
    have hfirst : first = separator := by simpa using hhead
    exact (List.mem_cons.mp hafter).resolve_left fun heq => hne (heq.trans hfirst)

/-- The hostname and the port of an authority in brackets. -/
theorem hostinfo_wrapped (hat : '@' ∉ text) :
    (hostinfo ('[' :: text ++ [']'])).1 = literal text
      ∧ port ('[' :: text ++ [']'])
        = if ':' ∈ text.dropWhile (· ≠ ']') then none else some none := by
  have hnoat : '@' ∉ '[' :: text ++ [']'] := by simpa using hat
  have hopen : '[' ∈ '[' :: text ++ [']'] := by simp
  have hfirst : cutAt '[' ('[' :: text ++ [']']) = ([], text ++ [']']) := rfl
  have hhost : (text ++ [']']).takeWhile (· ≠ ']') = literal text := by
    rw [List.takeWhile_append]
    split
    · next hall =>
      rw [literal, (List.takeWhile_prefix _).eq_of_length hall]
      simp
    · rfl
  have hafter : (text ++ [']']).dropWhile (· ≠ ']') = text.dropWhile (· ≠ ']') ++ [']'] := by
    rw [List.dropWhile_append]
    split
    · next hempty =>
      rw [List.isEmpty_iff.mp hempty]
      rfl
    · rfl
  have hinfo : hostinfo ('[' :: text ++ [']']) = (literal text,
      (cutAt ':' ((text.dropWhile (· ≠ ']') ++ [']']).drop 1)).2) := by
    rw [hostinfo, afterLast_of_not_mem hnoat, if_pos hopen, hfirst]
    dsimp only [cutAt]
    rw [hhost, hafter]
  refine ⟨by rw [hinfo], ?_⟩
  have hhead := List.head?_dropWhile_not (fun c : Char => decide (c ≠ ']')) text
  rw [port, hinfo]
  dsimp only
  generalize text.dropWhile (fun c => decide (c ≠ ']')) = tail at hhead ⊢
  cases tail with
  | nil => rfl
  | cons first rest =>
    obtain rfl : first = ']' := by simpa using hhead
    rw [List.cons_append, List.drop_one, List.tail_cons]
    by_cases hcolon : ':' ∈ rest
    · -- What follows the colon ends with the bracket, so it is no number.
      obtain ⟨front, after, rfl, hfront⟩ := List.eq_append_cons_of_mem hcolon
      rw [List.append_assoc, List.cons_append, cutAt_append hfront,
        if_pos (List.mem_cons_of_mem _ hcolon)]
      simp [show Char.isDigit ']' = false from rfl]
    · have hnone : ':' ∉ rest ++ [']'] := by simpa using hcolon
      have hnot : ':' ∉ ']' :: rest := by simpa using hcolon
      rw [cutAt_of_not_mem hnone, if_neg hnot]
      exact if_pos rfl

/-- What an authority comes to: its hostname, when nothing but a port that is allowed stands beside
it. -/
theorem normalizeAuthority_eq_some_iff {candidate result : List Char} {allowPort : Bool} :
    normalizeAuthority rules candidate allowPort = some result
      ↔ ∃ parsed number, urlsplit rules candidate = some parsed
        ∧ port parsed.netloc = some number ∧ (hostinfo parsed.netloc).1 ≠ []
        ∧ '@' ∉ parsed.netloc ∧ parsed.path = [] ∧ parsed.query = [] ∧ parsed.fragment = []
        ∧ (number.isSome = true → allowPort = true)
        ∧ if '[' ∈ parsed.netloc then
            isAddress (lowered rules (hostinfo parsed.netloc).1) = true
              ∧ result = lowered rules (hostinfo parsed.netloc).1
          else plainName (lowered rules (hostinfo parsed.netloc).1) = some result := by
  rw [normalizeAuthority]
  cases hsplit : urlsplit rules candidate with
  | none => simp
  | some parsed =>
    cases hport : port parsed.netloc with
    | none => simp [hport]
    | some number =>
      by_cases hhost : (hostinfo parsed.netloc).1 = []
      · simp [hport, hostname, hhost]
      by_cases hparts : '@' ∈ parsed.netloc ∨ parsed.path ≠ [] ∨ parsed.query ≠ []
          ∨ parsed.fragment ≠ [] ∨ (number.isSome = true ∧ allowPort = false)
      · simp only [hport, hostname, hhost, if_false, Option.bind_eq_bind, Option.bind_some,
          if_pos hparts, reduceCtorEq, false_iff]
        rintro ⟨other, code, hother, hcode, -, hat, hpath, hquery, hfragment, hallowed, -⟩
        obtain rfl := Option.some.inj hother
        obtain rfl := Option.some.inj (hport.symm.trans hcode)
        rcases hparts with h | h | h | h | ⟨h, hdenied⟩
        · exact hat h
        · exact h hpath
        · exact h hquery
        · exact h hfragment
        · exact absurd ((hallowed h).symm.trans hdenied) (by decide)
      · have hnothing := hparts
        simp only [not_or, not_and, not_not, Bool.not_eq_false] at hnothing
        obtain ⟨hat, hpath, hquery, hfragment, hallowed⟩ := hnothing
        simp only [hport, hostname, hhost, if_false, Option.bind_eq_bind, Option.bind_some,
          if_neg hparts]
        constructor
        · intro h
          refine ⟨parsed, number, rfl, hport, hhost, hat, hpath, hquery, hfragment, hallowed, ?_⟩
          split_ifs at h ⊢ with hopen haddress
          · exact ⟨haddress, (Option.some.inj h).symm⟩
          · exact h
        · rintro ⟨other, code, hother, -, -, -, -, -, -, -, h⟩
          obtain rfl := Option.some.inj hother
          split_ifs at h ⊢ with hopen haddress
          · rw [h.2]
          · exact absurd h.1 haddress
          · exact h

/-- What an authority splits into: the text before a delimiter, and the other texts hold the rest
but for the delimiters of a query and a fragment. -/
theorem urlsplit_eq_some {candidate : List Char} {parsed : SplitResult}
    (h : urlsplit rules candidate = some parsed) :
    parsed.netloc = candidate.takeWhile (!isDelimiter ·)
      ∧ ('[' ∈ parsed.netloc → ']' ∈ parsed.netloc ∧ rules.bracketsAllowed parsed.netloc = true)
      ∧ checkNetloc rules parsed.netloc = true
      ∧ ∀ c ∈ candidate.dropWhile (!isDelimiter ·), c ≠ '#' → c ≠ '?' →
        c ∈ parsed.path ∨ c ∈ parsed.query ∨ c ∈ parsed.fragment := by
  rw [urlsplit] at h
  simp only [] at h
  split_ifs at h with hbalance hbrackets hcheck
  obtain rfl := Option.some.inj h
  refine ⟨rfl, fun hopen => ?_, hcheck, fun c hc hfragment hquery => ?_⟩
  · have hclose : ']' ∈ candidate.takeWhile (!isDelimiter ·) := by
      by_contra hclose
      exact hbalance (.inl ⟨hopen, hclose⟩)
    refine ⟨hclose, ?_⟩
    by_contra hallowed
    exact hbrackets ⟨hopen, hclose, Bool.eq_false_iff.mpr hallowed⟩
  · rcases mem_cutAt hc hfragment with hbefore | hafter
    · exact (mem_cutAt hbefore hquery).imp_right .inl
    · exact .inr (.inr hafter)

/-- The hostname in brackets: what an IPv6 literal comes to. -/
theorem normalizeAuthority_wrapped {text result : List Char} (allowPort : Bool) :
    normalizeAuthority rules ('[' :: text ++ [']']) allowPort = some result
      ↔ Admitted rules text ∧ result = lowered rules (literal text) := by
  have hopen : '[' ∈ '[' :: text ++ [']'] := by simp
  have hclose : ']' ∈ '[' :: text ++ [']'] := by simp
  rw [normalizeAuthority_eq_some_iff]
  constructor
  · rintro ⟨parsed, number, hsplit, hport, -, hat, hpath, hquery, hfragment, -, hresult⟩
    obtain ⟨hnetloc, hbrackets, hchecked, hrest⟩ := urlsplit_eq_some hsplit
    -- The closing bracket at the end is not behind a delimiter.
    have hend : ']' ∉ ('[' :: text ++ [']']).dropWhile (!isDelimiter ·) := by
      intro hmem
      have hin := hrest ']' hmem (by decide) (by decide)
      rw [hpath, hquery, hfragment] at hin
      simp at hin
    have hwhole : ('[' :: text ++ [']']).dropWhile (!isDelimiter ·) = [] := by
      obtain ⟨front, heq⟩ := List.dropWhile_suffix (l := '[' :: text ++ [']']) (!isDelimiter ·)
      cases hlast : (('[' :: text ++ [']']).dropWhile (!isDelimiter ·)).getLast? with
      | none => exact List.getLast?_eq_none_iff.mp hlast
      | some c =>
        have hsame := congrArg List.getLast? heq
        rw [List.getLast?_append, hlast, List.getLast?_append] at hsame
        obtain rfl : c = ']' := by simpa using hsame
        exact absurd (List.mem_of_getLast? hlast) hend
    have hall := List.dropWhile_eq_nil_iff.mp hwhole
    rw [List.takeWhile_eq_self_iff.mpr hall] at hnetloc
    rw [hnetloc] at hat hbrackets hchecked hport hresult
    have hnoat : '@' ∉ text := fun hmem => hat (by simp [hmem])
    obtain ⟨hhost, hportText⟩ := hostinfo_wrapped hnoat
    rw [if_pos hopen, hhost] at hresult
    rw [hportText] at hport
    refine ⟨⟨fun c hc => ?_, hnoat, (hbrackets hopen).2, hchecked, fun hcolon => ?_, hresult.1⟩,
      hresult.2⟩
    · simpa using hall c (by simp [hc])
    · rw [if_pos hcolon] at hport
      cases hport
  · rintro ⟨h, rfl⟩
    have hnoat : '@' ∉ '[' :: text ++ [']'] := by simpa using h.at'
    obtain ⟨hhost, hportText⟩ := hostinfo_wrapped h.at'
    have hne : literal text ≠ [] := by
      intro hnil
      have haddress := h.address
      have hempty : lowered rules [] = [] := by
        show rules.lower [] ++ [] = []
        rw [rules.lower_ascii [] fun c hc => absurd hc List.not_mem_nil]
        rfl
      rw [hnil, hempty] at haddress
      exact absurd haddress (by decide)
    refine ⟨⟨'[' :: text ++ [']'], [], [], []⟩, none, ?_, ?_, ?_, hnoat, rfl, rfl, rfl,
      fun hsome => (by cases hsome), ?_⟩
    · rw [urlsplit_netloc (forall_mem_wrapped.mpr ⟨rfl, h.delimiters, rfl⟩), if_neg, if_neg,
        if_pos h.checked]
      · rintro ⟨-, -, hdenied⟩
        exact absurd (h.allowed.symm.trans hdenied) (by decide)
      · rintro (⟨-, hnot⟩ | ⟨-, hnot⟩)
        · exact hnot hclose
        · exact hnot hopen
    · rw [hportText, if_neg h.portless]
    · rw [hhost]
      exact hne
    · rw [if_pos hopen, hhost]
      exact ⟨h.address, rfl⟩

/-- The hostname without brackets and port. -/
theorem normalizeAuthority_plain (allowPort : Bool) (hdelimiter : ∀ c ∈ text, isDelimiter c = false)
    (hat : '@' ∉ text) (hopen : '[' ∉ text) (hclose : ']' ∉ text) (hcolon : ':' ∉ text)
    (hne : text ≠ []) :
    normalizeAuthority rules text allowPort
      = if checkNetloc rules text then plainName (lowered rules text) else none := by
  have hinfo : hostinfo text = (text, []) := by
    rw [hostinfo, afterLast_of_not_mem hat, if_neg hopen, cutAt_of_not_mem hcolon]
  have hport : port text = some none := by simp [port, hinfo]
  have hhost : hostname rules text = some (lowered rules text) := by
    simp [hostname, hinfo, hne]
  rw [normalizeAuthority, urlsplit_netloc hdelimiter]
  cases hcheck : checkNetloc rules text with
  | false => simp [hopen, hclose]
  | true =>
    simp only [hopen, hclose, false_and, or_self, if_false, if_true, Option.bind_eq_bind,
      Option.bind_some, hport, hhost, hat, ne_eq, not_true, Option.isSome_none,
      Bool.false_eq_true]

/-! ### The characters of a hostname -/

/-- The code of a character of an address. -/
theorem code_of_isIpChar (h : Ip.isIpChar c = true) :
    (48 ≤ c.toNat ∧ c.toNat ≤ 58) ∨ c.toNat = 46 ∨ (65 ≤ c.toNat ∧ c.toNat ≤ 70)
      ∨ (97 ≤ c.toNat ∧ c.toNat ≤ 102) := by
  have hletters : 'a'.toNat = 97 ∧ 'f'.toNat = 102 ∧ 'A'.toNat = 65 ∧ 'F'.toNat = 70 := by decide
  obtain ⟨ha, hf, hA, hF⟩ := hletters
  simp only [Ip.isIpChar, Ip.hexDigit, Bool.or_eq_true, beq_iff_eq, ha, hf, hA, hF] at h
  rcases h with (hhex | rfl) | rfl
  · by_cases hdigit : c.isDigit = true
    · rw [Ip.isDigit_iff] at hdigit
      omega
    · simp only [hdigit, if_false, Bool.false_eq_true] at hhex
      split_ifs at hhex with hlower hupper
      · omega
      · omega
      · simp at hhex
  · have hcode : ':'.toNat = 58 := rfl
    omega
  · have hcode : '.'.toNat = 46 := rfl
    omega

/-- A character that stands in hostnames of any kind: none that splits an authority, none that is
blank or of the category C, and none whose form NFKC is another one. -/
structure Plain (c : Char) : Prop where
  delimiter : isDelimiter c = false
  at' : c ≠ '@'
  opening : c ≠ '['
  closing : c ≠ ']'
  percent : c ≠ '%'
  blank : isPySpace c = false
  ascii : 32 < c.toNat ∧ c.toNat < 127

/-- A character with a code between the blanks and the delimiters. -/
theorem plain_of_code
    (h : (48 ≤ c.toNat ∧ c.toNat ≤ 58) ∨ c.toNat = 45 ∨ c.toNat = 46
    ∨ c.toNat = 95 ∨ (65 ≤ c.toNat ∧ c.toNat ≤ 90) ∨ (97 ≤ c.toNat ∧ c.toNat ≤ 122)) :
    Plain c := by
  have hne : ∀ d : Char, c.toNat ≠ d.toNat → c ≠ d := fun d hcode heq => hcode (heq ▸ rfl)
  have hcodes : '/'.toNat = 47 ∧ '?'.toNat = 63 ∧ '#'.toNat = 35 ∧ '@'.toNat = 64
    ∧ '['.toNat = 91 ∧ ']'.toNat = 93 ∧ '%'.toNat = 37 := by decide
  obtain ⟨h1, h2, h3, h4, h5, h6, h7⟩ := hcodes
  refine ⟨?_, hne _ (by omega), hne _ (by omega), hne _ (by omega), hne _ (by omega), ?_,
    by omega⟩
  · simp [isDelimiter, hne '/' (by omega), hne '?' (by omega), hne '#' (by omega)]
  · simp only [isPySpace, Bool.or_eq_false_iff, Bool.and_eq_false_iff, decide_eq_false_iff_not,
      beq_eq_false_iff_ne]
    omega

/-- The characters of addresses are plain. -/
theorem plain_of_isIpChar (h : Ip.isIpChar c = true) : Plain c := by
  have hcode := code_of_isIpChar h
  exact plain_of_code (by omega)

/-- The code of a letter or a digit. -/
theorem isLabelEnd_iff (c : Char) : isLabelEnd c = true
    ↔ (48 ≤ c.toNat ∧ c.toNat ≤ 57) ∨ (65 ≤ c.toNat ∧ c.toNat ≤ 90)
      ∨ (97 ≤ c.toNat ∧ c.toNat ≤ 122) := by
  have hval : c.val.toNat = c.toNat := rfl
  have hcodes : 'A'.val.toNat = 65 ∧ 'Z'.val.toNat = 90 ∧ 'a'.val.toNat = 97
    ∧ 'z'.val.toNat = 122 ∧ '0'.val.toNat = 48 ∧ '9'.val.toNat = 57 := by decide
  show ((decide (c.val ≥ 'A'.val ∧ c.val ≤ 'Z'.val)
    || decide (c.val ≥ 'a'.val) && decide (c.val ≤ 'z'.val))
    || decide (c.val ≥ '0'.val) && decide (c.val ≤ '9'.val)) = true ↔ _
  simp only [Bool.or_eq_true, Bool.and_eq_true, decide_eq_true_eq, ge_iff_le,
    UInt32.le_iff_toNat_le]
  omega

/-- The characters of labels are plain. -/
theorem plain_of_label (h : (isLabelEnd c || c == '_' || c == '-') = true) :
    Plain c := by
  have hcodes : '_'.toNat = 95 ∧ '-'.toNat = 45 := by decide
  simp only [Bool.or_eq_true, beq_iff_eq] at h
  rcases h with (hend | rfl) | rfl
  · have hcode := (isLabelEnd_iff c).mp hend
    exact plain_of_code (by omega)
  · exact plain_of_code (by omega)
  · exact plain_of_code (by omega)

/-- A text of plain characters has none of the characters that split an authority. -/
theorem not_mem_of_plain (h : ∀ c ∈ text, Plain c) :
    (∀ c ∈ text, isDelimiter c = false) ∧ '@' ∉ text ∧ '[' ∉ text ∧ ']' ∉ text ∧ '%' ∉ text :=
  ⟨fun c hc => (h c hc).delimiter, fun hc => (h _ hc).at' rfl, fun hc => (h _ hc).opening rfl,
    fun hc => (h _ hc).closing rfl, fun hc => (h _ hc).percent rfl⟩

/-- The check of the authority lets ASCII texts pass. -/
theorem checkNetloc_of_ascii (h : ∀ c ∈ text, c.toNat < 128) :
    checkNetloc rules text = true := by
  have hall : text.all (fun c => decide (c.toNat < 128)) = true := by simpa using h
  simp [checkNetloc, hall]

/-- A text without a zone. -/
theorem host_of_not_mem (h : '%' ∉ text) :
    Ip.host text = text ∧ Ip.zone text = [] := by
  have hcut := cutAt_of_not_mem h
  have hall : ∀ c ∈ text, decide (c ≠ '%') = true := by
    intro c hc
    exact decide_eq_true fun heq => h (heq ▸ hc)
  exact ⟨List.takeWhile_eq_self_iff.mpr hall, List.dropWhile_eq_nil_iff.mpr hall⟩

/-- A plain text in lower case. -/
theorem lowered_of_plain (h : ∀ c ∈ text, Plain c) :
    lowered rules text = text.map Char.toLower := by
  obtain ⟨hhost, hzone⟩ := host_of_not_mem (not_mem_of_plain h).2.2.2.2
  rw [lowered, hhost, hzone, List.append_nil]
  exact rules.lower_ascii text fun c hc => by
    have hascii := (h c hc).ascii
    omega

/-- A text without upper-case letters is its own lower case. -/
theorem map_toLower_of_not_upper (h : ∀ c ∈ text, ¬(65 ≤ c.toNat ∧ c.toNat ≤ 90)) :
    text.map Char.toLower = text := by
  refine (List.map_congr_left fun c hc => ?_).trans (List.map_id _)
  refine Char.toNat_inj.mp ?_
  rw [Ip.toNat_toLower, if_neg (h c hc)]
  rfl

/-- A plain character in lower case is plain. -/
theorem plain_toLower (h : Plain c) : Plain c.toLower := by
  have hcode := Ip.toNat_toLower c
  by_cases hupper : 65 ≤ c.toNat ∧ c.toNat ≤ 90
  · rw [if_pos hupper] at hcode
    exact plain_of_code (by omega)
  · have hsame : c.toLower = c := by
      refine Char.toNat_inj.mp ?_
      rw [hcode, if_neg hupper]
    rwa [hsame]

/-! ### Addresses -/

/-- An IPv4 address is an address. -/
theorem isAddress_of_ipv4 (h : (Ip.ipv4 text).isSome = true) :
    isAddress text = true := by
  obtain ⟨value, hvalue⟩ := Option.isSome_iff_exists.mp h
  simp [isAddress, Ip.ipAddress, hvalue]

/-- An address is one of the two kinds. -/
theorem cases_of_isAddress (h : isAddress text = true) :
    (Ip.ipv4 text).isSome = true
      ∨ ∃ value zone, Ip.ipAddress text = some (.v6 value zone)
        ∧ Ip.ipv6 (Ip.host text) = some value ∧ Ip.zoneName (Ip.zone text) = some zone := by
  cases hfour : Ip.ipv4 text with
  | some value => exact .inl rfl
  | none =>
    by_cases hslash : '/' ∈ text
    · simp [isAddress, Ip.ipAddress, hfour, hslash] at h
    cases hzone : Ip.zoneName (Ip.zone text) with
    | none => simp [isAddress, Ip.ipAddress, hfour, hslash, hzone] at h
    | some zone =>
      cases hvalue : Ip.ipv6 (Ip.host text) with
      | none => simp [isAddress, Ip.ipAddress, hfour, hslash, hzone, hvalue] at h
      | some value =>
        refine .inr ⟨value, zone, ?_, rfl, rfl⟩
        simp [Ip.ipAddress, hfour, hslash, hzone, hvalue]

/-! ### What a spelling comes to -/

/-- A visible character of ASCII. -/
def Visible (c : Char) : Prop := isPySpace c = false ∧ 32 < c.toNat ∧ c.toNat < 127

/-- Plain characters are visible. -/
theorem Plain.visible (h : Plain c) : Visible c := ⟨h.blank, h.ascii⟩

/-- A text of visible characters as it goes into the authority. -/
theorem normalizeWebHostname_eq (allowPort : Bool) (hne : text ≠ [])
    (hvisible : ∀ c ∈ text, Visible c) :
    normalizeWebHostname rules (String.ofList text) allowPort
      = if text.length ≤ 260 then
          (normalizeAuthority rules (bracketed text) allowPort).map String.ofList
        else none := by
  have hblank : ∀ c ∈ (String.ofList text).toList, isPySpace c = false := by
    intro c hc
    rw [String.toList_ofList] at hc
    exact (hvisible c hc).1
  have hother : text.any rules.isOther = false := by
    rw [List.any_eq_false]
    intro c hc
    rw [Bool.not_eq_true]
    exact rules.isOther_ascii c (hvisible c hc).2.1 (hvisible c hc).2.2
  by_cases hshort : text.length ≤ 260
  · have hnot : ¬260 < text.length := by omega
    simp [normalizeWebHostname, pyStrip_of_all hblank, hne, hnot, hother, hshort]
  · have hlong : 260 < text.length := by omega
    simp [normalizeWebHostname, pyStrip_of_all hblank, hlong, hshort]

/-- A text in brackets is taken as it is. -/
theorem bracketed_wrapped (text : List Char) :
    bracketed ('[' :: text ++ [']']) = '[' :: text ++ [']'] := by
  rw [bracketed, if_neg]
  rintro ⟨-, hfirst⟩
  exact hfirst rfl

/-- An IPv6 address is the address of its host part. -/
theorem host_of_ipAddress {value : ℕ} (h : Ip.ipAddress text = some (.v6 value name)) :
    Ip.ipv6 (Ip.host text) = some value ∧ Ip.zoneName (Ip.zone text) = some name
      ∧ '/' ∉ text := by
  cases hfour : Ip.ipv4 text with
  | some octets => simp [Ip.ipAddress, hfour] at h
  | none =>
    by_cases hslash : '/' ∈ text
    · simp [Ip.ipAddress, hfour, hslash] at h
    cases hzone : Ip.zoneName (Ip.zone text) with
    | none => simp [Ip.ipAddress, hfour, hslash, hzone] at h
    | some zone =>
      cases hvalue : Ip.ipv6 (Ip.host text) with
      | none => simp [Ip.ipAddress, hfour, hslash, hzone, hvalue] at h
      | some number =>
        simp only [Ip.ipAddress, hfour, hslash, hzone, hvalue, if_false, Option.bind_eq_bind,
          Option.bind_some, Option.pure_def, Option.some.injEq, Ip.Address.v6.injEq] at h
        obtain ⟨rfl, rfl⟩ := h
        exact ⟨rfl, rfl, hslash⟩

/-- A text is its host part and its zone. -/
theorem host_append_zone (text : List Char) : Ip.host text ++ Ip.zone text = text :=
  List.takeWhile_append_dropWhile

/-- The host part of a text has no zone. -/
theorem percent_not_mem_host (text : List Char) : '%' ∉ Ip.host text := by
  intro hmem
  have htrue := List.mem_takeWhile_imp hmem
  simp at htrue

/-- The parts of a host without a zone and a zone. -/
theorem host_of_append {first second : List Char} (hfirst : '%' ∉ first)
    (hsecond : second = [] ∨ second.head? = some '%') :
    Ip.host (first ++ second) = first ∧ Ip.zone (first ++ second) = second := by
  have hall : ∀ c ∈ first, decide (c ≠ '%') = true := by
    intro c hc
    exact decide_eq_true fun heq => hfirst (heq ▸ hc)
  rw [Ip.host, Ip.zone, List.takeWhile_append_of_pos hall, List.dropWhile_append_of_pos hall]
  rcases hsecond with rfl | hhead
  · simp
  · cases second with
    | nil => simp at hhead
    | cons c second =>
      obtain rfl : c = '%' := by simpa using hhead
      simp

/-- A zone begins with its sign. -/
theorem zone_head (text : List Char) : Ip.zone text = [] ∨ (Ip.zone text).head? = some '%' := by
  cases hzone : Ip.zone text with
  | nil => exact .inl rfl
  | cons c rest =>
    have hhead := List.head?_dropWhile_not (fun c : Char => decide (c ≠ '%')) text
    rw [show List.dropWhile (fun c : Char => decide (c ≠ '%')) text = c :: rest from hzone] at hhead
    exact .inr (by simpa using hhead)

/-- A text that is accepted in brackets: it has no character of the category C and is not too
long. -/
structure Accepted (rules : UrlRules) (limit : ℕ) (text : List Char) : Prop extends
    Admitted rules text where
  length : text.length ≤ limit
  others : ∀ c ∈ text, rules.isOther c = false

instance (rules : UrlRules) (limit : ℕ) (text : List Char) :
    Decidable (Accepted rules limit text) :=
  have hall : ∀ p : Char → Bool, text.all (!p ·) = true ↔ ∀ c ∈ text, p c = false := by simp
  decidable_of_iff (text.all (!isDelimiter ·) = true ∧ '@' ∉ text
      ∧ rules.bracketsAllowed ('[' :: text ++ [']']) = true
      ∧ checkNetloc rules ('[' :: text ++ [']']) = true ∧ ':' ∉ text.dropWhile (· ≠ ']')
      ∧ isAddress (lowered rules (literal text)) = true ∧ text.length ≤ limit
      ∧ text.all (!rules.isOther ·) = true)
    ⟨fun ⟨h1, h2, h3, h4, h5, h6, h7, h8⟩ =>
        ⟨⟨(hall _).mp h1, h2, h3, h4, h5, h6⟩, h7, (hall _).mp h8⟩,
      fun h => ⟨(hall _).mpr h.delimiters, h.at', h.allowed, h.checked, h.portless, h.address,
        h.length, (hall _).mpr h.others⟩⟩

/-- A value that is not too long and of no character of the category C goes into the authority. -/
theorem normalizeWebHostname_eq_some_iff {value result : String} {allowPort : Bool} :
    normalizeWebHostname rules value allowPort = some result
      ↔ (pyStrip value).toList ≠ [] ∧ (pyStrip value).toList.length ≤ 260
        ∧ (∀ c ∈ (pyStrip value).toList, rules.isOther c = false)
        ∧ normalizeAuthority rules (bracketed (pyStrip value).toList) allowPort
          = some result.toList := by
  have hname : ∀ name : Option (List Char),
      name.map String.ofList = some result ↔ name = some result.toList := by
    intro name
    rw [Option.map_eq_some_iff]
    constructor
    · rintro ⟨text, rfl, rfl⟩
      rw [String.toList_ofList]
    · rintro rfl
      exact ⟨_, rfl, String.ofList_toList⟩
  rw [normalizeWebHostname]
  split_ifs with hbad
  · refine ⟨fun h => (by cases h), ?_⟩
    rintro ⟨hne, hlength, hother, -⟩
    rcases hbad with h | h | h
    · exact absurd h hne
    · omega
    · obtain ⟨c, hc, hbad⟩ := List.any_eq_true.mp h
      exact absurd ((hother c hc).symm.trans hbad) (by decide)
  · simp only [not_or, not_lt, List.any_eq_true, not_exists, not_and, Bool.not_eq_true] at hbad
    rw [hname]
    exact ⟨fun h => ⟨hbad.1, hbad.2.1, hbad.2.2, h⟩, fun h => h.2.2.2⟩

/-- A text in brackets is stripped. -/
theorem pyStrip_wrapped (text : List Char) :
    (pyStrip (String.ofList ('[' :: text ++ [']']))).toList = '[' :: text ++ [']'] := by
  rw [pyStrip, String.toList_ofList, String.toList_ofList, List.cons_append,
    List.dropWhile_cons_of_neg (by decide), ← List.cons_append, List.reverse_append,
    List.reverse_singleton, List.singleton_append, List.dropWhile_cons_of_neg (by decide),
    List.reverse_cons, List.reverse_reverse]

/-- A text in brackets, which count for the length. -/
theorem normalize_wrapped {result : String} (allowPort : Bool) :
    normalizeWebHostname rules (String.ofList ('[' :: text ++ [']'])) allowPort = some result
      ↔ Accepted rules 258 text ∧ result.toList = lowered rules (literal text) := by
  rw [normalizeWebHostname_eq_some_iff, pyStrip_wrapped, bracketed_wrapped,
    normalizeAuthority_wrapped, forall_mem_wrapped]
  simp only [List.cons_append, List.length_cons, List.length_append, List.length_nil]
  constructor
  · rintro ⟨-, hlength, ⟨-, hother, -⟩, hadmitted, hresult⟩
    exact ⟨⟨hadmitted, by omega, hother⟩, hresult⟩
  · rintro ⟨h, hresult⟩
    have hlength := h.length
    exact ⟨List.cons_ne_nil _ _, by omega, ⟨rules.isOther_ascii _ (by decide) (by decide),
      h.others, rules.isOther_ascii _ (by decide) (by decide)⟩, h.toAdmitted, hresult⟩

/-- A bare text that goes into brackets. -/
theorem normalize_bare {value result : String} (allowPort : Bool)
    (hcount : 2 ≤ (pyStrip value).toList.count ':')
    (hhead : (pyStrip value).toList.head? ≠ some '[') :
    normalizeWebHostname rules value allowPort = some result
      ↔ Accepted rules 260 (pyStrip value).toList
        ∧ result.toList = lowered rules (literal (pyStrip value).toList) := by
  have hne : (pyStrip value).toList ≠ [] := by
    intro hnil
    simp [hnil] at hcount
  rw [normalizeWebHostname_eq_some_iff, bracketed, if_pos ⟨hcount, hhead⟩,
    normalizeAuthority_wrapped]
  exact ⟨fun ⟨_, hlength, hother, hadmitted, hresult⟩ => ⟨⟨hadmitted, hlength, hother⟩, hresult⟩,
    fun ⟨h, hresult⟩ => ⟨hne, h.length, h.others, h.toAdmitted, hresult⟩⟩

/-- The text of an IPv6 address as it is stripped: its zone loses the blanks at its end. -/
theorem pyStrip_ipv6 {value : ℕ} (h : Ip.ipAddress text = some (.v6 value name)) :
    (pyStrip (String.ofList text)).toList
      = Ip.host text ++ ((Ip.zone text).reverse.dropWhile isPySpace).reverse := by
  have hsome : (Ip.ipv6 (Ip.host text)).isSome = true := by simp [(host_of_ipAddress h).1]
  have hblank : ∀ c ∈ Ip.host text, isPySpace c = false :=
    fun c hc => (plain_of_isIpChar (Ip.isIpChar_of_ipv6 hsome c hc)).blank
  have hkeep : ∀ l : List Char, (∀ c ∈ l, isPySpace c = false) → l.dropWhile isPySpace = l := by
    intro l hl
    cases l with
    | nil => rfl
    | cons c rest => exact List.dropWhile_cons_of_neg (by simp [hl c List.mem_cons_self])
  have hfirst : text.dropWhile isPySpace = text := by
    cases hhost : Ip.host text with
    | nil =>
      rw [hhost] at hsome
      exact absurd hsome (by decide)
    | cons c rest =>
      rw [← host_append_zone text, hhost, List.cons_append]
      exact List.dropWhile_cons_of_neg (by simp [hblank c (hhost ▸ List.mem_cons_self)])
  have hback : (Ip.host text).reverse.dropWhile isPySpace = (Ip.host text).reverse :=
    hkeep _ fun c hc => hblank c (List.mem_reverse.mp hc)
  rw [pyStrip, String.toList_ofList, String.toList_ofList, hfirst]
  conv_lhs => rw [← host_append_zone text]
  rw [List.reverse_append, List.dropWhile_append, hback]
  split
  · next hempty =>
    rw [List.isEmpty_iff.mp hempty, List.reverse_reverse, List.reverse_nil, List.append_nil]
  · rw [List.reverse_append, List.reverse_reverse]

/-- A bare IPv6 literal goes into brackets. -/
theorem bare_ipv6 {value : ℕ} (h : Ip.ipAddress text = some (.v6 value name)) :
    2 ≤ (pyStrip (String.ofList text)).toList.count ':'
      ∧ (pyStrip (String.ofList text)).toList.head? ≠ some '[' := by
  have hsome : (Ip.ipv6 (Ip.host text)).isSome = true := by simp [(host_of_ipAddress h).1]
  have hcount := Ip.two_le_count_of_ipv6 hsome
  rw [pyStrip_ipv6 h, List.count_append]
  refine ⟨by omega, ?_⟩
  cases hhost : Ip.host text with
  | nil =>
    rw [hhost] at hcount
    exact absurd hcount (by decide)
  | cons c rest =>
    intro hhead
    have hplain := plain_of_isIpChar (Ip.isIpChar_of_ipv6 hsome c (hhost ▸ List.mem_cons_self))
    exact hplain.opening (by simpa using hhead)

/-- A plain text without colons as it goes into the authority. -/
theorem normalize_plain (allowPort : Bool) (hne : text ≠ []) (hplain : ∀ c ∈ text, Plain c)
    (hcolon : ':' ∉ text) :
    normalizeWebHostname rules (String.ofList text) allowPort
      = if text.length ≤ 260 then (plainName (text.map Char.toLower)).map String.ofList
        else none := by
  obtain ⟨hdelimiter, hat, hopen, hclose, -⟩ := not_mem_of_plain hplain
  have hbare : bracketed text = text := by
    have hcount : text.count ':' = 0 := List.count_eq_zero.mpr hcolon
    rw [bracketed, hcount, if_neg (by omega)]
  have hascii : checkNetloc rules text = true :=
    checkNetloc_of_ascii fun c hc => by
      have hcode := (hplain c hc).ascii
      omega
  rw [normalizeWebHostname_eq allowPort hne fun c hc => (hplain c hc).visible, hbare,
    normalizeAuthority_plain allowPort hdelimiter hat hopen hclose hcolon hne, if_pos hascii,
    lowered_of_plain hplain]

/-- The characters of an IPv4 literal. -/
theorem plain_of_ipv4 (h : (Ip.ipv4 text).isSome = true) :
    (∀ c ∈ text, Plain c) ∧ ':' ∉ text ∧ text ≠ [] ∧ text.map Char.toLower = text := by
  refine ⟨fun c hc => plain_of_isIpChar (Ip.isIpChar_of_ipv4 h c hc),
    fun hmem => absurd (Ip.isDigit_of_ipv4 h _ hmem) (by decide), ?_, ?_⟩
  · rintro rfl
    exact absurd h (by decide)
  · refine map_toLower_of_not_upper fun c hc => ?_
    rcases Ip.isDigit_of_ipv4 h c hc with rfl | hdigit
    · decide
    · rw [Ip.isDigit_iff] at hdigit
      omega

/-- An IPv4 literal comes to itself. In brackets it does when the version of Python lets it. -/
theorem normalize_ipv4 (allowPort : Bool) (h : (Ip.ipv4 text).isSome = true) :
    normalizeWebHostname rules (String.ofList text) allowPort = some (String.ofList text)
      ∧ normalizeWebHostname rules (String.ofList ('[' :: text ++ [']'])) allowPort
        = if rules.bracketsAllowed ('[' :: text ++ [']']) then some (String.ofList text)
          else none := by
  obtain ⟨hplain, hcolon, hne, hlower⟩ := plain_of_ipv4 h
  obtain ⟨hdelimiter, hat, hopen, hclose, -⟩ := not_mem_of_plain hplain
  have hshort := Ip.length_le_of_ipv4 h
  have haddress := isAddress_of_ipv4 h
  constructor
  · rw [normalize_plain allowPort hne hplain hcolon, if_pos (by omega), hlower, plainName,
      if_pos haddress]
    rfl
  · have hvisible : ∀ c ∈ '[' :: text ++ [']'], Visible c :=
      forall_mem_wrapped.mpr ⟨⟨by decide, by decide, by decide⟩,
        fun c hc => (hplain c hc).visible, ⟨by decide, by decide, by decide⟩⟩
    have hascii : checkNetloc rules ('[' :: text ++ [']']) = true :=
      checkNetloc_of_ascii fun c hc => by
        have hcode := (hvisible c hc).2.2
        omega
    have hwhole : literal text = text := List.takeWhile_eq_self_iff.mpr fun c hc =>
      decide_eq_true fun heq => hclose (heq ▸ hc)
    have hnothing : text.dropWhile (· ≠ ']') = [] := List.dropWhile_eq_nil_iff.mpr fun c hc =>
      decide_eq_true fun heq => hclose (heq ▸ hc)
    have hsame : lowered rules (literal text) = text := by
      rw [hwhole, lowered_of_plain hplain, hlower]
    cases hallowed : rules.bracketsAllowed ('[' :: text ++ [']']) with
    | true =>
      rw [if_pos rfl]
      refine (normalize_wrapped allowPort).mpr ⟨⟨⟨hdelimiter, hat, hallowed, hascii, ?_, ?_⟩,
        by omega, fun c hc => ?_⟩, by rw [hsame, String.toList_ofList]⟩
      · rw [hnothing]
        exact List.not_mem_nil
      · rw [hsame]
        exact haddress
      · exact rules.isOther_ascii c (hplain c hc).ascii.1 (hplain c hc).ascii.2
    | false =>
      refine Option.eq_none_iff_forall_ne_some.mpr fun result hresult => ?_
      have haccepted := ((normalize_wrapped allowPort).mp hresult).1
      exact absurd (haccepted.allowed.symm.trans hallowed) (by decide)

end

end Mocop.Hostnames
