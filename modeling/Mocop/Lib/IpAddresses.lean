import Mathlib.Data.List.Basic
import Mathlib.Order.Basic

/-!
# `Mocop.Lib.IpAddresses`: the textual forms of IP addresses

`ipv4` reads four decimal octets and `ipv6` eight groups of up to four hexadecimal digits, one
run of them left out at `::`, the last two perhaps written as an IPv4 address. `ipAddress` reads
either, and an IPv6 address with a zone after `%`. These are the readers of the module `ipaddress`
of the Python standard library.

Many texts denote one IPv6 address. The case of the digits is one reason (`ipv6_toLower`), zeros
in front and the run that is left out are others. Every text of an address is made of a few
characters (`isIpChar_of_ipv6`), two colons among them (`two_le_count_of_ipv6`).
-/

set_option autoImplicit false

namespace Mocop.Ip

/-! ### IPv4 -/

/-- A decimal octet without zeros in front. -/
def octet (text : List Char) : Option ℕ :=
  if text = [] ∨ ¬text.all Char.isDigit ∨ 3 < text.length
      ∨ (text ≠ ['0'] ∧ text.head? = some '0') then none
  else if 255 < Nat.ofDigitChars 10 text 0 then none
  else some (Nat.ofDigitChars 10 text 0)

/-- An IPv4 address. -/
def ipv4 (text : List Char) : Option ℕ :=
  let octets := text.splitOn '.'
  if octets.length ≠ 4 then none
  else (octets.mapM octet).map fun values => values.foldl (fun value octet => value * 256 + octet) 0

/-! ### IPv6 -/

/-- The value of a hexadecimal digit. -/
def hexDigit (c : Char) : Option ℕ :=
  if c.isDigit then some (c.toNat - '0'.toNat)
  else if 'a'.toNat ≤ c.toNat ∧ c.toNat ≤ 'f'.toNat then some (c.toNat - 'a'.toNat + 10)
  else if 'A'.toNat ≤ c.toNat ∧ c.toNat ≤ 'F'.toNat then some (c.toNat - 'A'.toNat + 10)
  else none

/-- A group of one to four hexadecimal digits. -/
def hextet (text : List Char) : Option ℕ :=
  if text = [] ∨ 4 < text.length then none
  else (text.mapM hexDigit).map fun digits => digits.foldl (fun value digit => value * 16 + digit) 0

/-- The groups of a text, an IPv4 address at the end replaced by two groups. -/
def groups (text : List Char) : Option (List (List Char)) :=
  let parts := text.splitOn ':'
  if text = [] ∨ parts.length < 3 then none
  else
    let last := parts.getLast?.getD []
    if '.' ∈ last then
      (ipv4 last).map fun value => parts.dropLast
        ++ [Nat.toDigits 16 (value / 65536 % 65536), Nat.toDigits 16 (value % 65536)]
    else some parts

/-- The positions between the first and the last group where a group is left out. -/
def gaps (parts : List (List Char)) : List ℕ :=
  (List.range parts.length).filter fun i =>
    1 ≤ i ∧ i + 1 < parts.length ∧ parts.getD i [] = []

/-- The groups before a gap: an empty one only when it is the first one of the text. -/
def before (parts : List (List Char)) : Option (List (List Char)) :=
  if parts.head? = some [] then (if parts.length = 1 then some [] else none) else some parts

/-- The groups after a gap: an empty one only when it is the last one of the text. -/
def after (parts : List (List Char)) : Option (List (List Char)) :=
  if parts.getLast? = some [] then (if parts.length = 1 then some [] else none) else some parts

/-- The value of some groups. -/
def groupsValue (values : List ℕ) : ℕ := values.foldl (fun value group => value * 65536 + group) 0

/-- The value of groups with a gap, which stands for one group or more. -/
def gapValue (parts : List (List Char)) (gap : ℕ) : Option ℕ := do
  let high ← before (parts.take gap)
  let low ← after (parts.drop (gap + 1))
  if 8 ≤ high.length + low.length then none
  else do
    let highValues ← high.mapM hextet
    let lowValues ← low.mapM hextet
    return groupsValue (highValues ++ List.replicate (8 - (high.length + low.length)) 0
      ++ lowValues)

/-- The value of groups: eight of them, or fewer with one gap. -/
def partsValue (parts : List (List Char)) : Option ℕ :=
  if 9 < parts.length then none
  else match gaps parts with
    | [] => if parts.length ≠ 8 then none else (parts.mapM hextet).map groupsValue
    | [gap] => gapValue parts gap
    | _ => none

/-- An IPv6 address. -/
def ipv6 (text : List Char) : Option ℕ := (groups text).bind partsValue

/-! ### Addresses with a zone -/

/-- An IP address. -/
inductive Address where
  | v4 (value : ℕ)
  | v6 (value : ℕ) (zone : Option (List Char))
  deriving DecidableEq

/-- The text before the first `%`. -/
def host (text : List Char) : List Char := text.takeWhile (· ≠ '%')

/-- The text from the first `%` on. -/
def zone (text : List Char) : List Char := text.dropWhile (· ≠ '%')

/-- The zone that the text from `%` on names: none without `%`. -/
def zoneName : List Char → Option (Option (List Char))
  | [] => some none
  | _ :: name => if name = [] ∨ '%' ∈ name then none else some (some name)

/-- `ip_address` -/
def ipAddress (text : List Char) : Option Address :=
  match ipv4 text with
  | some value => some (.v4 value)
  | none =>
    if '/' ∈ text then none
    else do
      let name ← zoneName (zone text)
      return .v6 (← ipv6 (host text)) name

/-! ### The characters of an address -/

/-- Whether a character may stand in an address. -/
def isIpChar (c : Char) : Bool := (hexDigit c).isSome || c == ':' || c == '.'

/-- A digit is a hexadecimal digit. -/
theorem hexDigit_of_isDigit {c : Char} (h : c.isDigit = true) : (hexDigit c).isSome = true := by
  simp [hexDigit, h]

/-- What maps over a list maps over each of its items. -/
theorem isSome_of_mapM {α β : Type} {f : α → Option β} {items : List α} {values : List β}
    (h : items.mapM f = some values) : ∀ item ∈ items, (f item).isSome = true := by
  induction items generalizing values with
  | nil => simp
  | cons item items ih =>
    rw [List.mapM_cons] at h
    cases hitem : f item with
    | none => simp [hitem] at h
    | some value =>
      cases hitems : items.mapM f with
      | none => simp [hitem, hitems] at h
      | some rest =>
        rw [List.forall_mem_cons]
        exact ⟨by simp [hitem], ih hitems⟩

variable {text : List Char}

/-- The characters of an octet. -/
theorem isDigit_of_octet (h : (octet text).isSome = true) :
    ∀ c ∈ text, c.isDigit = true := by
  by_cases hall : text.all Char.isDigit = true
  · exact List.all_eq_true.mp hall
  · simp [octet, hall] at h

/-- The characters of a text are those of its pieces, and the separator. -/
theorem mem_of_splitOn (separator : Char) {c : Char} (hc : c ∈ text) :
    c = separator ∨ ∃ piece ∈ text.splitOn separator, c ∈ piece := by
  have hjoin : [separator].intercalate (text.splitOn separator) = text :=
    List.intercalate_splitOn separator
  rw [← hjoin] at hc
  generalize text.splitOn separator = pieces at hc
  induction pieces with
  | nil => simp [List.intercalate] at hc
  | cons piece pieces ih =>
    cases pieces with
    | nil => exact .inr ⟨piece, by simp, by simpa [List.intercalate] using hc⟩
    | cons next pieces =>
      simp only [List.intercalate, List.intersperse_cons_cons, List.flatten_cons, List.mem_append,
        List.mem_singleton] at hc ih
      rcases hc with hpiece | rfl | hlater
      · exact .inr ⟨piece, by simp, hpiece⟩
      · exact .inl rfl
      · rcases ih hlater with heq | ⟨later, hmem, hin⟩
        · exact .inl heq
        · exact .inr ⟨later, List.mem_cons_of_mem _ hmem, hin⟩

/-- The characters of an IPv4 address. -/
theorem isDigit_of_ipv4 (h : (ipv4 text).isSome = true) :
    ∀ c ∈ text, c = '.' ∨ c.isDigit = true := by
  intro c hc
  rw [ipv4] at h
  split_ifs at h with hcount
  · simp at h
  · cases hoctets : (text.splitOn '.').mapM octet with
    | none => simp [hoctets] at h
    | some values =>
      rcases mem_of_splitOn '.' hc with hdot | ⟨piece, hpiece, hin⟩
      · exact .inl hdot
      · exact .inr (isDigit_of_octet (isSome_of_mapM hoctets piece hpiece) c hin)

/-- The characters of an IPv4 address are characters of addresses. -/
theorem isIpChar_of_ipv4 (h : (ipv4 text).isSome = true) :
    ∀ c ∈ text, isIpChar c = true := by
  intro c hc
  rcases isDigit_of_ipv4 h c hc with rfl | hdigit
  · decide
  · simp [isIpChar, hexDigit_of_isDigit hdigit]

/-- The characters of a group. -/
theorem hexDigit_of_hextet (h : (hextet text).isSome = true) :
    ∀ c ∈ text, (hexDigit c).isSome = true := by
  rw [hextet] at h
  split_ifs at h with hlength
  · simp at h
  · cases hdigits : text.mapM hexDigit with
    | none => simp [hdigits] at h
    | some digits => exact isSome_of_mapM hdigits

/-- An empty group in front of a gap or behind it stands alone there. -/
theorem hextet_of_side {parts side : List (List Char)} {first : Option (List Char)}
    {value : List ℕ} (hfirst : ∀ only, parts = [only] → first = some only)
    (hside : (if first = some [] then (if parts.length = 1 then some [] else none)
      else some parts) = some side) (hvalue : side.mapM hextet = some value) :
    ∀ part ∈ parts, part = [] ∨ (hextet part).isSome = true := by
  intro part hpart
  split_ifs at hside with hempty hone
  · obtain ⟨only, honly⟩ := List.length_eq_one_iff.mp hone
    rw [hfirst only honly, Option.some.injEq] at hempty
    rw [honly, List.mem_singleton] at hpart
    exact .inl (hpart.trans hempty)
  · rw [Option.some.injEq] at hside
    exact .inr (isSome_of_mapM hvalue part (hside ▸ hpart))

/-- The groups of a value with a gap. -/
theorem hextet_of_gapValue {parts : List (List Char)} {gap : ℕ}
    (hgap : parts[gap]? = some []) (h : (gapValue parts gap).isSome = true) :
    ∀ part ∈ parts, part = [] ∨ (hextet part).isSome = true := by
  obtain ⟨hinside, hempty⟩ := List.getElem?_eq_some_iff.mp hgap
  have hparts : parts = parts.take gap ++ [] :: parts.drop (gap + 1) := by
    have hsplit := List.take_append_drop gap parts
    rw [List.drop_eq_getElem_cons hinside, hempty] at hsplit
    exact hsplit.symm
  rw [gapValue] at h
  cases hhigh : before (parts.take gap) with
  | none => simp [hhigh] at h
  | some high =>
    cases hlow : after (parts.drop (gap + 1)) with
    | none => simp [hhigh, hlow] at h
    | some low =>
      by_cases hfull : 8 ≤ high.length + low.length
      · simp [hhigh, hlow, hfull] at h
      cases hhighs : high.mapM hextet with
      | none => simp [hhigh, hlow, hfull, hhighs] at h
      | some highs =>
        cases hlows : low.mapM hextet with
        | none => simp [hhigh, hlow, hlows] at h
        | some lows =>
          intro part hpart
          rw [hparts, List.mem_append, List.mem_cons] at hpart
          rcases hpart with hbefore | rfl | hafter
          · exact hextet_of_side (fun only honly => by simp [honly]) hhigh hhighs part hbefore
          · exact .inl rfl
          · exact hextet_of_side (fun only honly => by simp [honly]) hlow hlows part hafter

/-- Each group of an address is empty or hexadecimal. -/
theorem hextet_of_partsValue {parts : List (List Char)} (h : (partsValue parts).isSome = true) :
    ∀ part ∈ parts, part = [] ∨ (hextet part).isSome = true := by
  rw [partsValue] at h
  by_cases hmany : 9 < parts.length
  · simp [hmany] at h
  cases hgaps : gaps parts with
  | nil =>
    by_cases height : parts.length = 8
    · cases hvalues : parts.mapM hextet with
      | none => simp [hgaps, height, hvalues] at h
      | some values => exact fun part hpart => .inr (isSome_of_mapM hvalues part hpart)
    · simp [hmany, hgaps, height] at h
  | cons gap more =>
    cases more with
    | cons second more => simp [hmany, hgaps] at h
    | nil =>
      simp only [hmany, hgaps, if_false] at h
      have hgap : gap ∈ gaps parts := by simp [hgaps]
      simp only [gaps, List.mem_filter, List.mem_range, decide_eq_true_eq] at hgap
      obtain ⟨hinside, -, -, hempty⟩ := hgap
      refine hextet_of_gapValue ?_ h
      rw [List.getElem?_eq_getElem hinside]
      simpa [List.getD_eq_getElem?_getD, List.getElem?_eq_getElem hinside] using hempty

/-- The characters of an address. -/
theorem isIpChar_of_ipv6 (h : (ipv6 text).isSome = true) :
    ∀ c ∈ text, isIpChar c = true := by
  intro c hc
  cases hgroups : groups text with
  | none => simp [ipv6, hgroups] at h
  | some parts =>
    rw [ipv6, hgroups, Option.bind_some] at h
    have hpart := hextet_of_partsValue h
    have hin : ∀ part, part = [] ∨ (hextet part).isSome = true → c ∈ part →
        isIpChar c = true := by
      rintro part (rfl | hhex) hmem
      · simp at hmem
      · simp [isIpChar, hexDigit_of_hextet hhex c hmem]
    rcases mem_of_splitOn ':' hc with rfl | ⟨piece, hpiece, hmem⟩
    · decide
    -- A piece of the text is one of the groups, or the IPv4 address at the end.
    rw [groups] at hgroups
    by_cases hfew : text = [] ∨ (text.splitOn ':').length < 3
    · simp [hfew] at hgroups
    by_cases hdot : '.' ∈ ((text.splitOn ':').getLast?.getD [])
    · cases hvalue : ipv4 ((text.splitOn ':').getLast?.getD []) with
      | none => simp [hfew, hdot, hvalue] at hgroups
      | some value =>
        simp only [hfew, hdot, hvalue, if_true, if_false, Option.map_some,
          Option.some.injEq] at hgroups
        have hne : text.splitOn ':' ≠ [] := by
          intro hnil
          simp [hnil] at hfew
        rw [← List.dropLast_concat_getLast hne, List.mem_append, List.mem_singleton] at hpiece
        rcases hpiece with hfirst | hlast
        · exact hin piece (hpart piece (hgroups ▸ List.mem_append_left _ hfirst)) hmem
        · rw [List.getLast?_eq_some_getLast hne, Option.getD_some, ← hlast] at hvalue
          exact isIpChar_of_ipv4 (by simp [hvalue]) c hmem
    · simp only [hfew, hdot, if_false, Option.some.injEq] at hgroups
      exact hin piece (hpart piece (hgroups ▸ hpiece)) hmem

/-- The separators of a text are one fewer than its pieces. -/
theorem length_splitOn (separator : Char) (text : List Char) :
    (text.splitOn separator).length = text.count separator + 1 := by
  induction text with
  | nil => rfl
  | cons c text ih =>
    rw [List.splitOn_cons_eq_if_modifyHead, List.count_cons]
    by_cases hc : c = separator
    · simp [hc, ih]
    · simp [hc, ih]

/-- Two colons stand in an IPv6 address. -/
theorem two_le_count_of_ipv6 (h : (ipv6 text).isSome = true) :
    2 ≤ text.count ':' := by
  have hlength : 3 ≤ (text.splitOn ':').length := by
    by_contra hfew
    have hnone : groups text = none := by
      rw [groups]
      simp
      omega
    simp [ipv6, hnone] at h
  rw [length_splitOn] at hlength
  omega

/-- A text is no longer than its pieces and their separators. -/
theorem length_le_of_splitOn {separator : Char} {bound : ℕ}
    (h : ∀ piece ∈ text.splitOn separator, piece.length ≤ bound) :
    text.length ≤ (text.splitOn separator).length * (bound + 1) := by
  have hjoined : ∀ pieces : List (List Char), (∀ piece ∈ pieces, piece.length ≤ bound) →
      ([separator].intercalate pieces).length ≤ pieces.length * (bound + 1) := by
    intro pieces hpieces
    induction pieces with
    | nil => simp [List.intercalate]
    | cons piece pieces ih =>
      have hpiece := hpieces piece (by simp)
      have hlater := ih fun p hp => hpieces p (List.mem_cons_of_mem _ hp)
      cases pieces with
      | nil => simp [List.intercalate]; omega
      | cons next pieces =>
        simp only [List.intercalate, List.intersperse_cons_cons, List.flatten_cons, List.length_append,
          List.length_cons, List.length_nil, Nat.add_mul] at hlater ⊢
        omega
  have htext := hjoined _ h
  rwa [List.intercalate_splitOn] at htext

/-- An IPv4 address is short. -/
theorem length_le_of_ipv4 (h : (ipv4 text).isSome = true) :
    text.length ≤ 16 := by
  rw [ipv4] at h
  split_ifs at h with hcount
  · simp at h
  · cases hoctets : (text.splitOn '.').mapM octet with
    | none => simp [hoctets] at h
    | some values =>
      have hpieces : ∀ piece ∈ text.splitOn '.', piece.length ≤ 3 := by
        intro piece hpiece
        have hoctet := isSome_of_mapM hoctets piece hpiece
        by_contra hlong
        have hmany : 3 < piece.length := by omega
        simp [octet, hmany] at hoctet
      have hlength := length_le_of_splitOn hpieces
      omega

/-! ### The case of the digits -/

/-- The code of a digit. -/
theorem isDigit_iff (c : Char) : c.isDigit = true ↔ 48 ≤ c.toNat ∧ c.toNat ≤ 57 := by
  simp only [Char.isDigit, Bool.and_eq_true, decide_eq_true_eq, ge_iff_le, UInt32.le_iff_toNat_le]
  rfl

/-- The code of a lower-case letter. -/
theorem toNat_toLower (c : Char) :
    c.toLower.toNat = if 65 ≤ c.toNat ∧ c.toNat ≤ 90 then c.toNat + 32 else c.toNat := by
  have hcode : c.val.toNat = c.toNat := rfl
  have hupper : (c.val ≥ 'A'.val ∧ c.val ≤ 'Z'.val) ↔ 65 ≤ c.toNat ∧ c.toNat ≤ 90 := by
    simp only [ge_iff_le, UInt32.le_iff_toNat_le, hcode]
    rfl
  by_cases h : 65 ≤ c.toNat ∧ c.toNat ≤ 90
  · have hval := hupper.mpr h
    rw [if_pos h]
    show Char.toNat (dite (c.val ≥ 'A'.val ∧ c.val ≤ 'Z'.val) _ _) = c.toNat + 32
    rw [dif_pos hval]
    show (c.val + ('a'.val - 'A'.val)).toNat = c.toNat + 32
    rw [UInt32.toNat_add, hcode]
    show (c.toNat + 32) % 2 ^ 32 = c.toNat + 32
    omega
  · have hval := fun hval => h (hupper.mp hval)
    rw [if_neg h]
    show Char.toNat (dite (c.val ≥ 'A'.val ∧ c.val ≤ 'Z'.val) _ _) = c.toNat
    rw [dif_neg hval]

/-- The case of a hexadecimal digit does not matter. -/
theorem hexDigit_toLower (c : Char) : hexDigit c.toLower = hexDigit c := by
  have hcode := toNat_toLower c
  have hletters : 'a'.toNat = 97 ∧ 'f'.toNat = 102 ∧ 'A'.toNat = 65 ∧ 'F'.toNat = 70
    ∧ '0'.toNat = 48 := by decide
  obtain ⟨ha, hf, hA, hF, h0⟩ := hletters
  simp only [hexDigit, isDigit_iff, hcode, ha, hf, hA, hF, h0]
  grind

/-- Only a separator becomes a separator in lower case. -/
theorem toLower_eq_iff {c separator : Char} (h : separator.toNat < 65) :
    c.toLower = separator ↔ c = separator := by
  have hcode := toNat_toLower c
  constructor
  · intro heq
    rw [heq] at hcode
    split_ifs at hcode with hupper
    · omega
    · exact Char.toNat_inj.mp hcode.symm
  · rintro rfl
    refine Char.toNat_inj.mp ?_
    rw [hcode, if_neg (by omega)]

/-- The pieces of a text in lower case. -/
theorem splitOn_map_toLower (separator : Char) (h : separator.toNat < 65) (text : List Char) :
    (text.map Char.toLower).splitOn separator
      = (text.splitOn separator).map (List.map Char.toLower) := by
  induction text with
  | nil => rfl
  | cons c text ih =>
    rw [List.map_cons, List.splitOn_cons_eq_if_modifyHead, List.splitOn_cons_eq_if_modifyHead, ih]
    by_cases hc : c = separator
    · have hlower : c.toLower = separator := (toLower_eq_iff h).mpr hc
      simp [hc ▸ hlower, hc]
    · have hlower : ¬c.toLower = separator := fun heq => hc ((toLower_eq_iff h).mp heq)
      cases text.splitOn separator with
      | nil => simp [hc, hlower]
      | cons piece pieces => simp [hc, hlower]

/-- A group in lower case has the same value. -/
theorem hextet_toLower (text : List Char) : hextet (text.map Char.toLower) = hextet text := by
  have hdigits : (text.map Char.toLower).mapM hexDigit = text.mapM hexDigit := by
    rw [List.mapM_map]
    congr 1
    funext c
    exact hexDigit_toLower c
  simp [hextet, hdigits]

/-- A digit is a lower-case character. -/
theorem isDigit_toLower (c : Char) : c.toLower.isDigit = c.isDigit := by
  have hcode := toNat_toLower c
  rw [Bool.eq_iff_iff, isDigit_iff, isDigit_iff, hcode]
  grind

/-- A digit is its own lower case. -/
theorem toLower_of_isDigit {c : Char} (h : c.isDigit = true) : c.toLower = c := by
  rw [isDigit_iff] at h
  refine Char.toNat_inj.mp ?_
  rw [toNat_toLower, if_neg (by omega)]

/-- An octet in lower case has the same value. -/
theorem octet_toLower (text : List Char) : octet (text.map Char.toLower) = octet text := by
  by_cases hall : ∀ c ∈ text, c.isDigit = true
  · have hsame : text.map Char.toLower = text :=
      (List.map_congr_left fun c hc => toLower_of_isDigit (hall c hc)).trans (List.map_id _)
    rw [hsame]
  · have hnone : ∀ t : List Char, ¬(∀ c ∈ t, c.isDigit = true) → octet t = none := by
      intro t ht
      have hfalse : ¬t.all Char.isDigit = true := fun h => ht (List.all_eq_true.mp h)
      simp [octet, hfalse]
    rw [hnone text hall, hnone _ ?_]
    intro hlower
    refine hall fun c hc => ?_
    rw [← isDigit_toLower]
    exact hlower _ (List.mem_map_of_mem hc)

/-- An IPv4 address in lower case has the same value. -/
theorem ipv4_toLower (text : List Char) : ipv4 (text.map Char.toLower) = ipv4 text := by
  have hpieces := splitOn_map_toLower '.' (by decide) text
  have hoctets : ((text.splitOn '.').map (List.map Char.toLower)).mapM octet
      = (text.splitOn '.').mapM octet := by
    rw [List.mapM_map]
    congr 1
    funext piece
    exact octet_toLower piece
  simp [ipv4, hpieces, hoctets]

/-- Lower case once is enough. -/
theorem toLower_toLower (c : Char) : c.toLower.toLower = c.toLower := by
  have hcode := toNat_toLower c
  refine Char.toNat_inj.mp ?_
  rw [toNat_toLower, if_neg]
  split_ifs at hcode with hupper <;> omega

section
variable {parts : List (List Char)}

/-- The groups of a text in lower case. -/
abbrev lowerParts (parts : List (List Char)) : List (List Char) := parts.map (List.map Char.toLower)

/-- The gaps are those of the groups in lower case. -/
theorem gaps_lowerParts (parts : List (List Char)) : gaps (lowerParts parts) = gaps parts := by
  have hget : ∀ i, (lowerParts parts).getD i [] = [] ↔ parts.getD i [] = [] := by
    intro i
    simp only [List.getD_eq_getElem?_getD, List.getElem?_map]
    cases parts[i]? <;> simp
  rw [gaps, gaps, List.length_map]
  simp only [hget]

/-- The groups in front of a gap in lower case. -/
theorem before_lowerParts (parts : List (List Char)) :
    before (lowerParts parts) = (before parts).map lowerParts := by
  have hhead : (lowerParts parts).head? = some [] ↔ parts.head? = some [] := by
    cases parts <;> simp
  rw [before, before, List.length_map]
  by_cases hfirst : parts.head? = some []
  · rw [if_pos (hhead.mpr hfirst), if_pos hfirst]
    split <;> rfl
  · rw [if_neg (fun h => hfirst (hhead.mp h)), if_neg hfirst]
    rfl

/-- The groups behind a gap in lower case. -/
theorem after_lowerParts (parts : List (List Char)) :
    after (lowerParts parts) = (after parts).map lowerParts := by
  have hlast : (lowerParts parts).getLast? = some [] ↔ parts.getLast? = some [] := by
    rw [List.getLast?_map]
    cases parts.getLast? <;> simp
  rw [after, after, List.length_map]
  by_cases hempty : parts.getLast? = some []
  · rw [if_pos (hlast.mpr hempty), if_pos hempty]
    split <;> rfl
  · rw [if_neg (fun h => hempty (hlast.mp h)), if_neg hempty]
    rfl

/-- The values of groups in lower case. -/
theorem mapM_hextet_lowerParts (parts : List (List Char)) :
    (lowerParts parts).mapM hextet = parts.mapM hextet := by
  rw [List.mapM_map]
  congr 1
  funext part
  exact hextet_toLower part

/-- The value of groups in lower case. -/
theorem partsValue_lowerParts (parts : List (List Char)) :
    partsValue (lowerParts parts) = partsValue parts := by
  have hgap : ∀ gap, gapValue (lowerParts parts) gap = gapValue parts gap := by
    intro gap
    rw [gapValue, gapValue, ← List.map_take, ← List.map_drop, before_lowerParts, after_lowerParts]
    cases before (parts.take gap) with
    | none => rfl
    | some high =>
      cases after (parts.drop (gap + 1)) with
      | none => rfl
      | some low =>
        simp only [Option.map_some, Option.bind_eq_bind, Option.bind_some, List.length_map,
          mapM_hextet_lowerParts]
  simp only [partsValue, gaps_lowerParts, List.length_map, mapM_hextet_lowerParts, hgap]

end

/-- The groups of a text in lower case, up to the case of their digits. -/
theorem groups_toLower (text : List Char) :
    (groups (text.map Char.toLower)).map lowerParts = (groups text).map lowerParts := by
  have hpieces := splitOn_map_toLower ':' (by decide) text
  have hidem : ∀ pieces, lowerParts (lowerParts pieces) = lowerParts pieces := by
    intro pieces
    simp only [lowerParts, List.map_map, Function.comp_def, toLower_toLower]
  have hlast : (lowerParts (text.splitOn ':')).getLast?.getD []
      = ((text.splitOn ':').getLast?.getD []).map Char.toLower := by
    rw [List.getLast?_map]
    cases (text.splitOn ':').getLast? <;> rfl
  have hdot : '.' ∈ ((text.splitOn ':').getLast?.getD []).map Char.toLower
      ↔ '.' ∈ (text.splitOn ':').getLast?.getD [] := by
    constructor
    · intro hmem
      obtain ⟨c, hc, hlower⟩ := List.mem_map.mp hmem
      rwa [(toLower_eq_iff (by decide)).mp hlower] at hc
    · exact fun hmem => List.mem_map.mpr ⟨'.', hmem, rfl⟩
  rw [groups, groups, hpieces]
  simp only [List.length_map, List.map_eq_nil_iff]
  by_cases hfew : text = [] ∨ (text.splitOn ':').length < 3
  · rw [if_pos hfew, if_pos hfew]
  rw [if_neg hfew, if_neg hfew, hlast, ipv4_toLower]
  by_cases hends : '.' ∈ (text.splitOn ':').getLast?.getD []
  · rw [if_pos (hdot.mpr hends), if_pos hends, Option.map_map, Option.map_map]
    congr 1
    funext value
    simp only [Function.comp_apply, lowerParts, List.map_append, List.map_dropLast, List.map_map,
      Function.comp_def, toLower_toLower]
  · rw [if_neg (fun h => hends (hdot.mp h)), if_neg hends, Option.map_some, Option.map_some, hidem]

/-- An IPv6 address in lower case has the same value. -/
theorem ipv6_toLower (text : List Char) : ipv6 (text.map Char.toLower) = ipv6 text := by
  have hvalue : ∀ parts : Option (List (List Char)),
      parts.bind partsValue = (parts.map lowerParts).bind partsValue := by
    intro parts
    cases parts with
    | none => rfl
    | some parts => exact (partsValue_lowerParts parts).symm
  rw [ipv6, ipv6, hvalue, groups_toLower, ← hvalue]

/-! ### Two texts of one address -/

example : ipv6 "::1".toList = ipv6 "0:0:0:0:0:0:0:1".toList := by decide +kernel

end Mocop.Ip
