import Mocop.Service.Hostnames

/-!
# `Mocop.Service.CanonicalNames`: one hostname for all spellings of a host

What `normalizeWebHostname` makes of the spellings of one host: of a DNS name in any case and with
or without its dot (`normalize_dns`), and of its own results (`normalize_result_iff`), which fail
to come to themselves when the literal in brackets ends with a blank (`EndsBlank`). Together with
what it makes of IP literals, whose zone may be any text, this is `canonical_iff`.
-/

set_option autoImplicit false

namespace Mocop.Hostnames

variable {rules : UrlRules}

/-! ### DNS names -/

/-- A letter or a digit in lower case. -/
theorem isLabelEnd_toLower (c : Char) : isLabelEnd c.toLower = isLabelEnd c := by
  have hcode := Ip.toNat_toLower c
  rw [Bool.eq_iff_iff, isLabelEnd_iff, isLabelEnd_iff]
  split_ifs at hcode with hupper <;> omega

/-- The sign of a label in lower case. -/
theorem toLower_eq_iff_of_code {c sign : Char} (hupper : ¬(65 ≤ sign.toNat ∧ sign.toNat ≤ 90))
    (hlower : ¬(97 ≤ sign.toNat ∧ sign.toNat ≤ 122)) : c.toLower = sign ↔ c = sign := by
  have hcode := Ip.toNat_toLower c
  constructor
  · intro heq
    rw [heq] at hcode
    split_ifs at hcode with hc
    · omega
    · exact Char.toNat_inj.mp hcode.symm
  · rintro rfl
    refine Char.toNat_inj.mp ?_
    rw [hcode, if_neg hupper]

/-- A label in lower case is a label. -/
theorem matchesLabel_toLower (label : List Char) :
    matchesLabel (label.map Char.toLower) = matchesLabel label := by
  have hunderscore : ∀ c : Char, (c.toLower == '_') = (c == '_') := fun c => by
    rw [Bool.eq_iff_iff, beq_iff_eq, beq_iff_eq]
    exact toLower_eq_iff_of_code (by decide) (by decide)
  have hhyphen : ∀ c : Char, (c.toLower == '-') = (c == '-') := fun c => by
    rw [Bool.eq_iff_iff, beq_iff_eq, beq_iff_eq]
    exact toLower_eq_iff_of_code (by decide) (by decide)
  simp only [matchesLabel, List.head?_map, List.getLast?_map, Option.any_map, List.all_map,
    Function.comp_def, isLabelEnd_toLower, hunderscore, hhyphen]

/-- A DNS name in lower case is a DNS name. -/
theorem isDnsName_toLower (name : List Char) :
    isDnsName (name.map Char.toLower) = isDnsName name := by
  rw [isDnsName, isDnsName, Ip.splitOn_map_toLower '.' (by decide), List.all_map]
  simp only [Function.comp_def, List.length_map, matchesLabel_toLower]

/-- The dot of a name in lower case. -/
theorem removeDot_toLower (text : List Char) :
    removeDot (text.map Char.toLower) = (removeDot text).map Char.toLower := by
  have hlast : (text.map Char.toLower).getLast? = some '.' ↔ text.getLast? = some '.' := by
    rw [List.getLast?_map]
    cases text.getLast? with
    | none => simp
    | some c => simp [@toLower_eq_iff_of_code c '.' (by decide) (by decide)]
  rw [removeDot, removeDot]
  simp only [hlast, ← List.map_dropLast]
  split <;> rfl

/-- The characters of a name are plain, and none is a colon. -/
theorem plain_of_isDnsName {name : List Char} (h : isDnsName name = true) :
    ∀ c ∈ name, Plain c ∧ c ≠ ':' := by
  intro c hc
  rcases Ip.mem_of_splitOn '.' hc with rfl | ⟨label, hlabel, hin⟩
  · exact ⟨plain_of_code (by decide), by decide⟩
  · have hmatches := List.all_eq_true.mp h label hlabel
    simp only [matchesLabel, Bool.and_eq_true] at hmatches
    have hchar := List.all_eq_true.mp hmatches.2.2 c hin
    refine ⟨plain_of_label hchar, ?_⟩
    rintro rfl
    exact absurd hchar (by decide)

/-- A name has a last character, which is no dot. -/
theorem getLast?_of_isDnsName {name : List Char} (h : isDnsName name = true) :
    name ≠ [] ∧ name.getLast? ≠ some '.' := by
  constructor
  · rintro rfl
    exact absurd h (by decide)
  · intro hlast
    obtain ⟨front, rfl⟩ := List.getLast?_eq_some_iff.mp hlast
    -- The label after the last dot would be empty.
    have hpieces : (front ++ ['.']).splitOn '.' = front.splitOn '.' ++ [[]] := by
      rw [List.splitOn_append_cons_self]
      rfl
    have hempty := List.all_eq_true.mp h [] (by simp [hpieces])
    exact absurd hempty (by decide)

/-- A text is its name, perhaps with a dot. -/
theorem eq_of_removeDot (text : List Char) :
    text = removeDot text ∨ text = removeDot text ++ ['.'] := by
  rw [removeDot]
  split
  · rename_i hlast
    obtain ⟨front, rfl⟩ := List.getLast?_eq_some_iff.mp hlast
    exact .inr (by simp)
  · exact .inl rfl

variable {text : List Char} {allowPort : Bool} {value result : String}

/-- The characters of a text that is a name, perhaps with a dot. -/
theorem plain_of_removeDot (h : isDnsName (removeDot text) = true) :
    (∀ c ∈ text, Plain c) ∧ ':' ∉ text ∧ text ≠ [] := by
  have hname := plain_of_isDnsName h
  have hdot : Plain '.' ∧ '.' ≠ ':' := ⟨plain_of_code (by decide), by decide⟩
  have hall : ∀ c ∈ text, Plain c ∧ c ≠ ':' := by
    rcases eq_of_removeDot text with heq | heq
    · rw [heq]
      exact hname
    · rw [heq, List.forall_mem_append]
      exact ⟨hname, by simpa using hdot⟩
  refine ⟨fun c hc => (hall c hc).1, fun hmem => (hall _ hmem).2 rfl, ?_⟩
  rintro rfl
  exact absurd h (by decide)

/-- A plain text without a colon is an address only as an IPv4 literal. -/
theorem ipv4_of_isAddress (hcolon : ':' ∉ text) (h : isAddress text = true) :
    (Ip.ipv4 text).isSome = true := by
  rcases cases_of_isAddress h with hfour | ⟨value, name, -, hvalue, -⟩
  · exact hfour
  · have hsome : (Ip.ipv6 (Ip.host text)).isSome = true := by simp [hvalue]
    have hcount := Ip.two_le_count_of_ipv6 hsome
    have hmem : ':' ∈ Ip.host text := List.count_pos_iff.mp (by omega)
    exact absurd ((List.takeWhile_sublist _).subset hmem) hcolon

/-- A DNS name comes to its lower case without the dot, unless it is longer than 253 characters,
the dot counted. -/
theorem normalize_dns (allowPort : Bool) (h : isDnsName (removeDot text) = true) :
    normalizeWebHostname rules (String.ofList text) allowPort
      = if text.length ≤ 253 then some (String.ofList ((removeDot text).map Char.toLower))
        else none := by
  obtain ⟨hplain, hcolon, hne⟩ := plain_of_removeDot h
  have hlowerColon : ':' ∉ text.map Char.toLower := by
    intro hmem
    obtain ⟨c, hc, hlower⟩ := List.mem_map.mp hmem
    rw [Ip.toLower_eq_iff (by decide)] at hlower
    exact hcolon (hlower ▸ hc)
  have hascii : (text.map Char.toLower).all (fun c => decide (c.toNat < 128)) = true := by
    rw [List.all_eq_true]
    intro c hc
    obtain ⟨d, hd, rfl⟩ := List.mem_map.mp hc
    have hcode := (plain_toLower (hplain d hd)).ascii
    simp only [decide_eq_true_eq]
    omega
  have hname : isDnsName (removeDot (text.map Char.toLower)) = true := by
    rw [removeDot_toLower, isDnsName_toLower, h]
  rw [normalize_plain allowPort hne hplain hcolon, plainName]
  by_cases haddress : isAddress (text.map Char.toLower) = true
  · -- An IPv4 literal is short, has no letters and does not end with a dot.
    have hfour := ipv4_of_isAddress hlowerColon haddress
    have hshort := Ip.length_le_of_ipv4 hfour
    rw [List.length_map] at hshort
    have hdot : (text.map Char.toLower).getLast? ≠ some '.' := by
      intro hlast
      obtain ⟨front, hfront⟩ := List.getLast?_eq_some_iff.mp hlast
      rw [hfront, Ip.ipv4, List.splitOn_append_cons_self] at hfour
      have hnone : (front.splitOn '.' ++ [[]]).mapM Ip.octet = none := by
        rw [List.mapM_append]
        cases (front.splitOn '.').mapM Ip.octet <;> rfl
      simp only [List.splitOn_nil, hnone, Option.map_none] at hfour
      split at hfour <;> simp at hfour
    have hkeep : (removeDot text).map Char.toLower = text.map Char.toLower := by
      rw [← removeDot_toLower, removeDot, if_neg hdot]
    rw [if_pos haddress, if_pos (by omega), if_pos (by omega), hkeep]
    rfl
  · rw [if_neg haddress, List.length_map, hascii, if_pos hname, removeDot_toLower]
    by_cases hshort : text.length ≤ 253
    · have hnot : ¬253 < text.length := by omega
      rw [if_pos (by omega), if_neg (by simp [hnot]), if_pos hshort]
      rfl
    · have hlong : 253 < text.length := by omega
      rw [if_neg hshort, if_pos (Or.inl hlong)]
      split <;> rfl

/-! ### Results -/

/-- The text between the brackets of an authority. -/
theorem bracketed_hostinfo {netloc : List Char} (hat : '@' ∉ netloc) (hopen : '[' ∈ netloc)
    (hclose : ']' ∈ netloc) :
    (hostinfo netloc).1.Sublist netloc ∧ ']' ∉ (hostinfo netloc).1
      ∧ (hostinfo netloc).1.length + 2 ≤ netloc.length := by
  obtain ⟨front, rest, hfront, rfl⟩ :
      ∃ front rest, '[' ∉ front ∧ netloc = front ++ '[' :: rest := by
    obtain ⟨front, rest, rfl, hfront⟩ := List.eq_append_cons_of_mem hopen
    exact ⟨front, rest, hfront, rfl⟩
  have hhost : (hostinfo (front ++ '[' :: rest)).1 = rest.takeWhile (· ≠ ']') := by
    rw [hostinfo, afterLast_of_not_mem hat, if_pos hopen, cutAt_append hfront]
    rfl
  have hsub : (rest.takeWhile fun c => decide (c ≠ ']')).Sublist rest := List.takeWhile_sublist _
  rw [hhost]
  refine ⟨hsub.trans ((List.sublist_cons_self _ _).trans (List.sublist_append_right _ _)), ?_, ?_⟩
  · intro hmem
    simpa using List.mem_takeWhile_imp hmem
  · have hlength := hsub.length_le
    simp only [List.length_append, List.length_cons]
    rw [List.mem_append, List.mem_cons] at hclose
    rcases hclose with hbefore | heq | hafter
    · have hpos := List.length_pos_of_mem hbefore
      omega
    · exact absurd heq (by decide)
    · -- The closing bracket itself is not taken.
      have hlt : (rest.takeWhile fun c => decide (c ≠ ']')).length < rest.length := by
        refine lt_of_le_of_ne hlength fun heq => ?_
        have hall := hsub.eq_of_length heq
        rw [← hall] at hafter
        simpa using List.mem_takeWhile_imp hafter
      omega

/-- What an authority with a result is. -/
structure FromAuthority (rules : UrlRules) (candidate netloc result : List Char) : Prop where
  netloc_eq : netloc = candidate.takeWhile (!isDelimiter ·)
  closing : '[' ∈ netloc → ']' ∈ netloc
  checked : checkNetloc rules netloc = true
  at' : '@' ∉ netloc
  result : if '[' ∈ netloc then
      isAddress (lowered rules (hostinfo netloc).1) = true
        ∧ result = lowered rules (hostinfo netloc).1
    else plainName (lowered rules (hostinfo netloc).1) = some result

/-- The characters of an authority. -/
theorem FromAuthority.chars {candidate netloc result : List Char}
    (h : FromAuthority rules candidate netloc result) :
    ∀ c ∈ netloc, c ∈ candidate ∧ isDelimiter c = false := by
  rw [h.netloc_eq]
  exact fun c hc => ⟨(List.takeWhile_sublist _).subset hc, by simpa using List.mem_takeWhile_imp hc⟩

/-- An authority with a result. -/
theorem cases_of_normalizeAuthority {candidate result : List Char}
    (h : normalizeAuthority rules candidate allowPort = some result) :
    ∃ netloc, FromAuthority rules candidate netloc result := by
  obtain ⟨parsed, number, hsplit, -, -, hat, -, -, -, -, hresult⟩ :=
    normalizeAuthority_eq_some_iff.mp h
  obtain ⟨hnetloc, hbrackets, hchecked, -⟩ := urlsplit_eq_some hsplit
  exact ⟨parsed.netloc, hnetloc, fun hopen => (hbrackets hopen).1, hchecked, hat, hresult⟩

/-- The characters of a candidate with brackets around it. -/
theorem mem_of_bracketed {candidate : List Char} {c : Char} (hc : c ∈ bracketed candidate) :
    c ∈ candidate ∨ c = '[' ∨ c = ']' := by
  rw [bracketed] at hc
  split at hc
  · simp only [List.cons_append, List.mem_cons, List.mem_append, List.not_mem_nil, or_false] at hc
    tauto
  · exact .inl hc

/-- The length of a candidate with brackets around it. -/
theorem length_bracketed (candidate : List Char) :
    (bracketed candidate).length ≤ candidate.length + 2 := by
  rw [bracketed]
  split
  · simp
  · omega

/-- The host part and the zone of a hostname in lower case. -/
theorem host_lowered (rules : UrlRules) (text : List Char) :
    Ip.host (lowered rules text) = rules.lower (Ip.host text)
      ∧ Ip.zone (lowered rules text) = Ip.zone text := by
  refine host_of_append (fun hmem => ?_) (zone_head text)
  exact percent_not_mem_host text
    (rules.mem_of_lower _ '%' hmem (by decide) (by decide))

/-- An IPv6 address in lower case is its own lower case and as long as what it came from. -/
theorem lowered_address {value : ℕ} (h : Ip.ipv6 (Ip.host (lowered rules text)) = some value) :
    lowered rules (lowered rules text) = lowered rules text
      ∧ (lowered rules text).length = text.length := by
  obtain ⟨hhost, hzone⟩ := host_lowered rules text
  have hsome : (Ip.ipv6 (rules.lower (Ip.host text))).isSome = true := by simp [← hhost, h]
  have hchars := Ip.isIpChar_of_ipv6 hsome
  have hascii := rules.lower_ascii _ (rules.ascii_of_lower _ hchars)
  constructor
  · have hlow : ∀ c ∈ rules.lower (Ip.host text), c.toNat < 128 := by
      intro c hc
      have hcode := (plain_of_isIpChar (hchars c hc)).ascii
      omega
    rw [lowered, hhost, hzone, rules.lower_ascii _ hlow,
      map_toLower_of_not_upper (rules.not_upper _), lowered]
  · have hparts := congrArg List.length (host_append_zone text)
    rw [List.length_append] at hparts
    rw [lowered, hascii, List.length_append, List.length_map]
    exact hparts

/-- The canonical name of a text without brackets comes to itself. -/
theorem normalize_plainName {text result : List Char} (allowPort : Bool) (hcolon : ':' ∉ text)
    (h : plainName (lowered rules text) = some result) :
    normalizeWebHostname rules (String.ofList result) allowPort = some (String.ofList result)
      ∧ ∀ c ∈ result, Plain c := by
  have hlowerColon : ':' ∉ lowered rules text := by
    rw [lowered, List.mem_append]
    rintro (hmem | hmem)
    · exact hcolon ((List.takeWhile_sublist _).subset
        (rules.mem_of_lower _ ':' hmem (by decide) (by decide)))
    · exact hcolon ((List.dropWhile_sublist _).subset hmem)
  rw [plainName] at h
  split_ifs at h with haddress hlong hname
  · rw [Option.some.injEq] at h
    subst h
    have hfour := ipv4_of_isAddress hlowerColon haddress
    exact ⟨(normalize_ipv4 allowPort hfour).1, (plain_of_ipv4 hfour).1⟩
  · rw [Option.some.injEq] at h
    subst h
    have hplain := fun c hc => (plain_of_isDnsName hname c hc).1
    refine ⟨?_, hplain⟩
    -- The name has no zone, so all of it is lower case.
    have hpercent : '%' ∉ lowered rules text := by
      have hnot : '%' ∉ removeDot (lowered rules text) := (not_mem_of_plain hplain).2.2.2.2
      intro hmem
      rcases eq_of_removeDot (lowered rules text) with heq | heq
      · exact hnot (heq ▸ hmem)
      · rw [heq, List.mem_append, List.mem_singleton] at hmem
        exact hmem.elim hnot (by decide)
    have hzone : Ip.zone text = [] := by
      rcases zone_head text with hnil | hhead
      · exact hnil
      · exact absurd (List.mem_append_right _ (List.mem_of_mem_head? hhead)) hpercent
    have hlower : lowered rules text = rules.lower (Ip.host text) := by
      rw [lowered, hzone, List.append_nil]
    have hsub : (removeDot (lowered rules text)).Sublist (lowered rules text) := by
      rw [removeDot]
      split
      · exact List.dropLast_sublist _
      · exact List.Sublist.refl _
    have hkeep : (removeDot (lowered rules text)).map Char.toLower
        = removeDot (lowered rules text) :=
      map_toLower_of_not_upper fun c hc => rules.not_upper _ c (hlower ▸ hsub.subset hc)
    have hdot : removeDot (removeDot (lowered rules text)) = removeDot (lowered rules text) :=
      if_neg (getLast?_of_isDnsName hname).2
    have hshort : (removeDot (lowered rules text)).length ≤ 253 := by
      have hle := hsub.length_le
      have hnot : ¬253 < (lowered rules text).length := fun hlt => hlong (.inl hlt)
      omega
    rw [normalize_dns allowPort (by rw [hdot]; exact hname), if_pos hshort, hdot, hkeep]

/-- A stripped text of the same length is the text. -/
theorem pyStrip_eq_of_length {value : String}
    (h : value.toList.length ≤ (pyStrip value).toList.length) : pyStrip value = value := by
  have hfirst := List.dropWhile_sublist isPySpace (l := value.toList)
  have hsecond := List.dropWhile_sublist isPySpace (l := (value.toList.dropWhile isPySpace).reverse)
  have hsub : (pyStrip value).toList.Sublist value.toList := by
    rw [pyStrip, String.toList_ofList]
    have hback := List.reverse_sublist.mpr hsecond
    rw [List.reverse_reverse] at hback
    exact hback.trans hfirst
  exact String.toList_inj.mp (hsub.eq_of_length_le h)

/-- A result: the lower case of an address in brackets, no longer than the stripped value, or a
plain canonical name. -/
theorem cases_of_normalize (h : normalizeWebHostname rules value allowPort = some result) :
    (∃ netloc, FromAuthority rules (bracketed (pyStrip value).toList) netloc
          result.toList
        ∧ '[' ∈ netloc ∧ result.toList = lowered rules (hostinfo netloc).1
        ∧ isAddress result.toList = true
        ∧ (hostinfo netloc).1.length ≤ (pyStrip value).toList.length
        ∧ (pyStrip value).toList.length ≤ 260
        ∧ ∀ c ∈ (hostinfo netloc).1, rules.isOther c = false ∧ isDelimiter c = false)
      ∨ ((∀ again, normalizeWebHostname rules result again = some result)
        ∧ (∀ c ∈ result.toList, isPySpace c = false)
        ∧ (bracketed (pyStrip value).toList).head? ≠ some '[') := by
  obtain ⟨-, hlength, hother, hname⟩ := normalizeWebHostname_eq_some_iff.mp h
  obtain ⟨netloc, hfrom⟩ := cases_of_normalizeAuthority hname
  have hresult := hfrom.result
  by_cases hopen : '[' ∈ netloc
  · rw [if_pos hopen] at hresult
    have hclose := hfrom.closing hopen
    obtain ⟨hsub, -, hshort⟩ := bracketed_hostinfo hfrom.at' hopen hclose
    have hwide := length_bracketed (pyStrip value).toList
    have hnarrow : netloc.length ≤ (bracketed (pyStrip value).toList).length :=
      hfrom.netloc_eq ▸ (List.takeWhile_sublist _).length_le
    refine .inl ⟨netloc, hfrom, hopen, hresult.2, hresult.2 ▸ hresult.1, by omega, hlength,
      fun c hc => ?_⟩
    obtain ⟨hin, hdelimiter⟩ := hfrom.chars c (hsub.subset hc)
    refine ⟨?_, hdelimiter⟩
    rcases mem_of_bracketed hin with hcandidate | rfl | rfl
    · exact hother c hcandidate
    · exact rules.isOther_ascii _ (by decide) (by decide)
    · exact rules.isOther_ascii _ (by decide) (by decide)
  · rw [if_neg hopen] at hresult
    have hhost : (hostinfo netloc).1 = netloc.takeWhile (· ≠ ':') := by
      rw [hostinfo, afterLast_of_not_mem hfrom.at', if_neg hopen]
      rfl
    have hcolon : ':' ∉ (hostinfo netloc).1 := by
      rw [hhost]
      intro hmem
      simpa using List.mem_takeWhile_imp hmem
    refine .inr ⟨fun again => ?_,
      fun c hc => ((normalize_plainName true hcolon hresult).2 c hc).blank, fun hhead => ?_⟩
    · have hself := (normalize_plainName again hcolon hresult).1
      rwa [String.ofList_toList] at hself
    · obtain ⟨rest, hrest⟩ := List.head?_eq_some_iff.mp hhead
      refine hopen ?_
      rw [hfrom.netloc_eq, hrest, List.takeWhile_cons_of_pos (by decide)]
      exact List.mem_cons_self

/-- The check of an authority lets the lower case of its address pass. -/
theorem checkNetloc_lowered {netloc : List Char} {value : ℕ}
    (hsub : ∀ c ∈ (hostinfo netloc).1, c ∈ netloc)
    (h : Ip.ipv6 (Ip.host (lowered rules (hostinfo netloc).1)) = some value)
    (hchecked : checkNetloc rules netloc = true) :
    checkNetloc rules ('[' :: lowered rules (hostinfo netloc).1 ++ [']']) = true := by
  generalize (hostinfo netloc).1 = text at *
  obtain ⟨hhost, hzone⟩ := host_lowered rules text
  have hsome : (Ip.ipv6 (Ip.host (lowered rules text))).isSome = true := by simp [h]
  have hplain : ∀ c ∈ rules.lower (Ip.host text), Plain c := by
    rw [← hhost]
    exact fun c hc => plain_of_isIpChar (Ip.isIpChar_of_ipv6 hsome c hc)
  have hzoneSub : ∀ c ∈ Ip.zone text, c ∈ netloc :=
    fun c hc => hsub c ((List.dropWhile_sublist _).subset hc)
  rw [checkNetloc, Bool.or_eq_true] at hchecked
  rcases hchecked with hascii | hsafe
  · refine checkNetloc_of_ascii (forall_mem_wrapped.mpr ⟨by decide, fun c hc => ?_, by decide⟩)
    rw [lowered, List.mem_append] at hc
    rcases hc with hfirst | hsecond
    · have hcode := (hplain c hfirst).ascii
      omega
    · simpa using List.all_eq_true.mp hascii c (hzoneSub c hsecond)
  · rw [checkNetloc, Bool.or_eq_true]
    refine .inr (List.all_eq_true.mpr fun c hc => ?_)
    simp only [List.mem_filter, decide_eq_true_eq, lowered] at hc hsafe
    rw [List.all_eq_true] at hsafe
    obtain ⟨hin, hkept⟩ := hc
    simp only [List.cons_append, List.mem_cons, List.mem_append, List.not_mem_nil, or_false] at hin
    simp only [List.mem_cons, List.not_mem_nil, or_false, not_or] at hkept
    -- Brackets and the address are of ASCII; the zone was checked before.
    have hfew : ∀ d : Char, d.toNat < 128 → isDelimiter d = false → d ≠ '@' → d ≠ ':' →
        (!rules.unsafeForm d) = true := by
      intro d hd hdelimiter hat hcolon
      have hnot : d ∉ ['/', '?', '#', '@', ':'] := by
        simp only [isDelimiter, Bool.or_eq_false_iff, beq_eq_false_iff_ne] at hdelimiter
        simp [hdelimiter, hat, hcolon]
      simp [rules.unsafe_ascii d hd hnot]
    rcases hin with rfl | (hfirst | hsecond) | rfl
    · exact hfew _ (by decide) (by decide) (by decide) (by decide)
    · have hc := hplain c hfirst
      have hcode := hc.ascii
      exact hfew c (by omega) hc.delimiter hc.at' hkept.2.1
    · exact hsafe c (List.mem_filter.mpr ⟨hzoneSub c hsecond, by simp [hkept]⟩)
    · exact hfew _ (by decide) (by decide) (by decide) (by decide)

/-- A result comes to itself when it is stripped. -/
theorem normalize_result_iff (again : Bool)
    (h : normalizeWebHostname rules value allowPort = some result) :
    normalizeWebHostname rules result again = some result ↔ pyStrip result = result := by
  rcases cases_of_normalize h with
    ⟨netloc, hfrom, hopen, hresult, haddress, hshort, hlength, hchars⟩ | ⟨hself, hblank, -⟩
  swap
  · exact ⟨fun _ => pyStrip_of_all hblank, fun _ => hself again⟩
  rcases cases_of_isAddress haddress with hfour | ⟨number, zone, hsix, hvalue, -⟩
  · -- An IPv4 literal has no blanks.
    obtain ⟨hplain, -⟩ := plain_of_ipv4 hfour
    have hnormal := (@normalize_ipv4 rules _ again hfour).1
    rw [String.ofList_toList] at hnormal
    exact ⟨fun _ => pyStrip_of_all fun c hc => (hplain c hc).blank, fun _ => hnormal⟩
  rw [hresult] at hvalue
  obtain ⟨hidem, hsame⟩ := lowered_address hvalue
  constructor
  · intro hself
    rcases cases_of_normalize hself with
      ⟨netloc', hfrom', hopen', hresult', -, hshort', -, -⟩ | ⟨-, hblank, -⟩
    · -- What is between the brackets is as long as the result, and no longer than it stripped.
      have hvalue' : Ip.ipv6 (Ip.host (lowered rules (hostinfo netloc').1)) = some number := by
        rw [← hresult', hresult]
        exact hvalue
      have hsame' := (lowered_address hvalue').2
      refine pyStrip_eq_of_length ?_
      rw [hresult', hsame']
      exact hshort'
    · exact pyStrip_of_all hblank
  · intro hstrip
    have hclose := hfrom.closing hopen
    obtain ⟨hsub, hnoclose, -⟩ := bracketed_hostinfo hfrom.at' hopen hclose
    obtain ⟨hhost, hzone⟩ := host_lowered rules (hostinfo netloc).1
    have hsome : (Ip.ipv6 (Ip.host result.toList)).isSome = true := by
      rw [hresult]
      simp [hvalue]
    have hplain : ∀ c ∈ Ip.host result.toList, Plain c :=
      fun c hc => plain_of_isIpChar (Ip.isIpChar_of_ipv6 hsome c hc)
    have hzoneSub : ∀ c ∈ Ip.zone result.toList, c ∈ (hostinfo netloc).1 := by
      rw [hresult, hzone]
      exact fun c hc => (List.dropWhile_sublist _).subset hc
    -- A character of the result is one of an address, or one of the old zone.
    have hmem : ∀ c ∈ result.toList, Plain c ∨ c ∈ (hostinfo netloc).1 := by
      intro c hc
      rw [← host_append_zone result.toList, List.mem_append] at hc
      exact hc.imp (hplain c) (hzoneSub c)
    have hdelimiter : ∀ c ∈ result.toList, isDelimiter c = false := by
      intro c hc
      rcases hmem c hc with hc | hc
      · exact hc.delimiter
      · exact (hchars c hc).2
    have hat : '@' ∉ result.toList := by
      intro hc
      rcases hmem _ hc with hc | hc
      · exact hc.at' rfl
      · exact hfrom.at' (hsub.subset hc)
    have hnobracket : ']' ∉ result.toList := by
      intro hc
      rcases hmem _ hc with hc | hc
      · exact hc.closing rfl
      · exact hnoclose hc
    have hother : ∀ c ∈ result.toList, rules.isOther c = false := by
      intro c hc
      rcases hmem c hc with hc | hc
      · exact rules.isOther_ascii c hc.ascii.1 hc.ascii.2
      · exact (hchars c hc).1
    have hcount : 2 ≤ result.toList.count ':' :=
      le_trans (Ip.two_le_count_of_ipv6 hsome) ((List.takeWhile_sublist _).count_le ':')
    have hhead : result.toList.head? ≠ some '[' := by
      intro heq
      cases hfirst : Ip.host result.toList with
      | nil =>
        rw [hfirst] at hsome
        exact absurd hsome (by decide)
      | cons c rest =>
        rw [← host_append_zone result.toList, hfirst, List.cons_append, List.head?_cons,
          Option.some.injEq] at heq
        exact (hplain c (by simp [hfirst])).opening heq
    have hfits : result.toList.length ≤ 260 := by
      rw [hresult, hsame]
      omega
    have hchecked : checkNetloc rules ('[' :: result.toList ++ [']']) = true := by
      rw [hresult]
      exact checkNetloc_lowered (fun c hc => hsub.subset hc) hvalue hfrom.checked
    have hown : lowered rules result.toList = result.toList := by
      rw [hresult]
      exact hidem
    have hwhole : literal result.toList = result.toList :=
      List.takeWhile_eq_self_iff.mpr fun c hc => decide_eq_true fun heq => hnobracket (heq ▸ hc)
    have hnothing : result.toList.dropWhile (· ≠ ']') = [] :=
      List.dropWhile_eq_nil_iff.mpr fun c hc => decide_eq_true fun heq => hnobracket (heq ▸ hc)
    refine (normalize_bare again (by rwa [hstrip]) (by rwa [hstrip])).mpr ?_
    rw [hstrip, hwhole, hown]
    refine ⟨⟨⟨hdelimiter, hat, rules.brackets_ipv6 _ number zone hnobracket hsix, hchecked, ?_, ?_⟩,
      hfits, hother⟩, rfl⟩
    · rw [hnothing]
      exact List.not_mem_nil
    · rw [hwhole, hown]
      exact haddress

/-! ### Blanks at the end -/

/-- The value is a literal in brackets, or goes into brackets, and the text in them ends with a
blank. -/
def EndsBlank (value : String) : Prop :=
  (bracketed (pyStrip value).toList).head? = some '['
    ∧ (literal ((bracketed (pyStrip value).toList).drop 1)).getLast?.any isPySpace = true

/-- The hostname of an authority that begins with a bracket. -/
theorem FromAuthority.literal_eq {candidate netloc result : List Char}
    (h : FromAuthority rules candidate netloc result) (hhead : candidate.head? = some '[') :
    literal (candidate.drop 1) = (hostinfo netloc).1 := by
  obtain ⟨rest, rfl⟩ := List.head?_eq_some_iff.mp hhead
  have hnetloc := h.netloc_eq
  rw [List.takeWhile_cons_of_pos (by decide)] at hnetloc
  have hopen : '[' ∈ netloc := hnetloc ▸ List.mem_cons_self
  have hclose : ']' ∈ rest.takeWhile (!isDelimiter ·) := by
    have hin := h.closing hopen
    rw [hnetloc] at hin
    exact (List.mem_cons.mp hin).resolve_left (by decide)
  have hhost : (hostinfo netloc).1 = literal (rest.takeWhile (!isDelimiter ·)) := by
    rw [hostinfo, afterLast_of_not_mem h.at', if_pos hopen, hnetloc]
    rfl
  rw [hhost, List.drop_one, List.tail_cons, literal]
  conv_lhs => rw [← @List.takeWhile_append_dropWhile _ (!isDelimiter ·) rest]
  rw [List.takeWhile_append, if_neg]
  · rfl
  · intro hlength
    have hall := (List.takeWhile_prefix _).eq_of_length hlength
    rw [← hall] at hclose
    simpa using List.mem_takeWhile_imp hclose

/-- The last character of an address is blank when it is before the change of case. -/
theorem getLast?_lowered {text : List Char}
    (h : ∀ c ∈ rules.lower (Ip.host text), Ip.isIpChar c = true) :
    (lowered rules text).getLast?.any isPySpace = text.getLast?.any isPySpace := by
  conv_rhs => rw [← host_append_zone text]
  rw [lowered, List.getLast?_append, List.getLast?_append]
  cases (Ip.zone text).getLast? with
  | some c => rfl
  | none =>
    -- Without a zone no character is blank, in either case.
    rw [Option.none_or, Option.none_or]
    have hlower := rules.lower_ascii _ (rules.ascii_of_lower _ h)
    rw [hlower] at h ⊢
    rw [List.getLast?_map]
    cases hlast : (Ip.host text).getLast? with
    | none => rfl
    | some c =>
      have hplain := plain_of_isIpChar (h _ (List.mem_map_of_mem (List.mem_of_getLast? hlast)))
      have hcode := Ip.toNat_toLower c
      show isPySpace c.toLower = isPySpace c
      rw [hplain.blank]
      split_ifs at hcode with hupper
      · exact (plain_of_code (by omega)).blank.symm
      · rw [← Char.toNat_inj.mp hcode]
        exact hplain.blank.symm

/-- A text that does not begin with a blank is stripped when it does not end with one. -/
theorem pyStrip_eq_iff {value : String} (h : value.toList.head?.any isPySpace = false) :
    pyStrip value = value ↔ ¬ value.toList.getLast?.any isPySpace = true := by
  have hfirst : value.toList.dropWhile isPySpace = value.toList := by
    cases hvalue : value.toList with
    | nil => rfl
    | cons c rest =>
      rw [hvalue] at h
      exact List.dropWhile_cons_of_neg (by simpa using h)
  rw [← String.toList_inj, pyStrip, String.toList_ofList, hfirst]
  constructor
  · intro hstrip hlast
    rw [← hstrip, List.getLast?_reverse] at hlast
    have hhead := List.head?_dropWhile_not isPySpace value.toList.reverse
    cases hback : (value.toList.reverse.dropWhile isPySpace).head? with
    | none =>
      rw [hback] at hlast
      cases hlast
    | some c =>
      rw [hback] at hlast hhead
      exact absurd hlast (by simpa using hhead)
  · intro hlast
    rw [← List.head?_reverse] at hlast
    cases hback : value.toList.reverse with
    | nil => rw [← List.reverse_reverse value.toList, hback]; rfl
    | cons c rest =>
      rw [hback] at hlast
      rw [List.dropWhile_cons_of_neg (by simpa using hlast), ← hback, List.reverse_reverse]

/-- A result is stripped unless the literal ends with a blank. -/
theorem pyStrip_result_iff (h : normalizeWebHostname rules value allowPort = some result) :
    pyStrip result = result ↔ ¬ EndsBlank value := by
  rcases cases_of_normalize h with
    ⟨netloc, hfrom, hopen, hresult, haddress, -, -, -⟩ | ⟨-, hblank, hhead⟩
  swap
  · exact ⟨fun _ hends => hhead hends.1, fun _ => pyStrip_of_all hblank⟩
  obtain ⟨hhost, -⟩ := host_lowered rules (hostinfo netloc).1
  have hliteral := hfrom.literal_eq
  rcases cases_of_isAddress haddress with hfour | ⟨number, zone, -, hvalue, -⟩
  · obtain ⟨hplain, -⟩ := plain_of_ipv4 hfour
    have hstrip : pyStrip result = result := pyStrip_of_all fun c hc => (hplain c hc).blank
    refine ⟨fun _ hends => ?_, fun _ => hstrip⟩
    have hlast := hends.2
    rw [hliteral hends.1, ← @getLast?_lowered rules _ fun c hc => ?_, ← hresult] at hlast
    · obtain ⟨c, hc, hspace⟩ := (Option.any_eq_true _ _).mp hlast
      exact absurd ((hplain c (List.mem_of_getLast? hc)).blank.symm.trans hspace) (by decide)
    · rw [← hhost, ← hresult] at hc
      exact Ip.isIpChar_of_ipv4 hfour c ((List.takeWhile_sublist _).subset hc)
  · have hsome : (Ip.ipv6 (Ip.host result.toList)).isSome = true := by simp [hvalue]
    have hchars := Ip.isIpChar_of_ipv6 hsome
    -- A literal with colons stands in brackets.
    have hhead : (bracketed (pyStrip value).toList).head? = some '[' := by
      obtain ⟨hsub, -, -⟩ := bracketed_hostinfo hfrom.at' hopen (hfrom.closing hopen)
      have hnetloc : netloc.Sublist (bracketed (pyStrip value).toList) :=
        hfrom.netloc_eq ▸ List.takeWhile_sublist _
      have hlower : (Ip.ipv6 (Ip.host (hostinfo netloc).1)).isSome = true := by
        rw [hresult, hhost] at hsome hchars
        rwa [rules.lower_ascii _ (rules.ascii_of_lower _ hchars), Ip.ipv6_toLower] at hsome
      have hcount : 2 ≤ (bracketed (pyStrip value).toList).count ':' :=
        (Ip.two_le_count_of_ipv6 hlower).trans
          ((((List.takeWhile_sublist _).trans hsub).trans hnetloc).count_le ':')
      by_contra hhead
      unfold bracketed at hcount hhead
      split_ifs at hcount hhead with hbare
      · exact hhead rfl
      · exact hbare ⟨hcount, hhead⟩
    have hfirst : result.toList.head?.any isPySpace = false := by
      cases hparts : Ip.host result.toList with
      | nil =>
        rw [hparts] at hsome
        exact absurd hsome (by decide)
      | cons c rest =>
        rw [← host_append_zone result.toList, hparts]
        exact (plain_of_isIpChar (hchars c (hparts ▸ List.mem_cons_self))).blank
    rw [pyStrip_eq_iff hfirst, EndsBlank, hliteral hhead, hresult, getLast?_lowered fun c hc => ?_]
    · simp [hhead]
    · rw [← hhost, ← hresult] at hc
      exact hchars c hc

/-! ### All spellings -/

/-- The zone of an address is that of its name. -/
theorem zone_of_name {first second : List Char} {name : Option (List Char)}
    (hfirst : Ip.zoneName (Ip.zone first) = some name)
    (hsecond : Ip.zoneName (Ip.zone second) = some name) : Ip.zone first = Ip.zone second := by
  have hdetermined : ∀ text : List Char, Ip.zoneName (Ip.zone text) = some name →
      Ip.zone text = name.elim [] ('%' :: ·) := by
    intro text htext
    rcases zone_head text with hnil | hhead
    · rw [hnil, Ip.zoneName, Option.some.injEq] at htext
      rw [hnil, ← htext]
      rfl
    · cases hzone : Ip.zone text with
      | nil => simp [hzone] at hhead
      | cons c rest =>
        obtain rfl : c = '%' := by simpa [hzone] using hhead
        rw [hzone, Ip.zoneName] at htext
        split_ifs at htext
        rw [← Option.some.inj htext]
        rfl
  rw [hdetermined first hfirst, hdetermined second hsecond]

/-- The rest of a zone without blanks at its end. -/
theorem head_of_stripped_zone (text : List Char) :
    ((Ip.zone text).reverse.dropWhile isPySpace).reverse = []
      ∨ ((Ip.zone text).reverse.dropWhile isPySpace).reverse.head? = some '%' := by
  rcases zone_head text with hzone | hzone
  · rw [hzone]
    exact .inl rfl
  · obtain ⟨rest, hrest⟩ := List.head?_eq_some_iff.mp hzone
    rw [hrest, List.reverse_cons, List.dropWhile_append]
    split
    · exact .inr rfl
    · exact .inr (by simp)

/-- The lower case of an address that stands in brackets with a zone. -/
theorem lowered_literal {text zone : List Char} {value : ℕ} {name : Option (List Char)}
    (h : Ip.ipAddress text = some (.v6 value name)) (hzone : zone = [] ∨ zone.head? = some '%') :
    literal (Ip.host text ++ zone) = Ip.host text ++ literal zone
      ∧ lowered rules (literal (Ip.host text ++ zone))
        = (Ip.host text).map Char.toLower ++ literal zone := by
  have hsome : (Ip.ipv6 (Ip.host text)).isSome = true := by simp [(host_of_ipAddress h).1]
  have hplain : ∀ c ∈ Ip.host text, Plain c :=
    fun c hc => plain_of_isIpChar (Ip.isIpChar_of_ipv6 hsome c hc)
  have hwhole : literal (Ip.host text ++ zone) = Ip.host text ++ literal zone :=
    List.takeWhile_append_of_pos fun c hc => decide_eq_true (hplain c hc).closing
  have hrest : literal zone = [] ∨ (literal zone).head? = some '%' := by
    rcases hzone with rfl | hhead
    · exact .inl rfl
    · obtain ⟨rest, rfl⟩ := List.head?_eq_some_iff.mp hhead
      exact .inr rfl
  obtain ⟨hhost, hkept⟩ := host_of_append (percent_not_mem_host text) hrest
  refine ⟨hwhole, ?_⟩
  rw [hwhole, lowered, hhost, hkept, rules.lower_ascii _ fun c hc => by
    have hcode := (hplain c hc).ascii
    omega]

/-- Two texts with one result each come to the same when both do or neither, and to one text. -/
theorem eq_iff_of_some {a b : Option String} {P Q : Prop} {first second : List Char}
    (ha : ∀ result, a = some result ↔ P ∧ result.toList = first)
    (hb : ∀ result, b = some result ↔ Q ∧ result.toList = second) :
    a = b ↔ (P ↔ Q) ∧ (P → first = second) := by
  have hfirst : P → a = some (String.ofList first) :=
    fun h => (ha _).mpr ⟨h, String.toList_ofList⟩
  have hsecond : Q → b = some (String.ofList second) :=
    fun h => (hb _).mpr ⟨h, String.toList_ofList⟩
  constructor
  · rintro rfl
    refine ⟨⟨fun h => ((hb _).mp (hfirst h)).1, fun h => ((ha _).mp (hsecond h)).1⟩, fun h => ?_⟩
    have hsame := ((hb _).mp (hfirst h)).2
    rwa [String.toList_ofList] at hsame
  · rintro ⟨hboth, hsame⟩
    refine Option.ext fun result => ?_
    rw [ha, hb, ← hboth]
    exact and_congr_right fun h => by rw [hsame h]

/-- **When all spellings of a host come to one hostname.** A result comes to itself unless the
literal in brackets ends with a blank. Two spellings of a DNS name agree when both have at most 253
characters, or neither has. An IPv4 literal agrees with itself in brackets when Python's version
lets these be. An IPv6 literal agrees with itself in brackets when both are accepted, the bare one
without the blanks at its end, or neither, and if they are then they are the same up to a closing
bracket. Two texts of one IPv6 address agree when both are accepted or neither, and if they are then
they are the same text up to the case of the digits. -/
theorem canonical_iff (rules : UrlRules) (allowPort : Bool) :
    (∀ (value result : String) (again : Bool),
        normalizeWebHostname rules value allowPort = some result →
        (normalizeWebHostname rules result again = some result ↔ ¬ EndsBlank value))
      ∧ (∀ first second : List Char, isDnsName (removeDot first) = true →
        isDnsName (removeDot second) = true →
        (removeDot first).map Char.toLower = (removeDot second).map Char.toLower →
        (normalizeWebHostname rules (String.ofList first) allowPort
            = normalizeWebHostname rules (String.ofList second) allowPort
          ↔ (first.length ≤ 253 ↔ second.length ≤ 253)))
      ∧ (∀ text : List Char, (Ip.ipv4 text).isSome = true →
        (normalizeWebHostname rules (String.ofList text) allowPort
            = normalizeWebHostname rules (String.ofList ('[' :: text ++ [']'])) allowPort
          ↔ rules.bracketsAllowed ('[' :: text ++ [']']) = true))
      ∧ (∀ (text : List Char) (value : ℕ) (name : Option (List Char)),
        Ip.ipAddress text = some (.v6 value name) →
        (normalizeWebHostname rules (String.ofList text) allowPort
            = normalizeWebHostname rules (String.ofList ('[' :: text ++ [']'])) allowPort
          ↔ (Accepted rules 260 (pyStrip (String.ofList text)).toList ↔ Accepted rules 258 text)
            ∧ (Accepted rules 258 text →
              literal (pyStrip (String.ofList text)).toList = literal text)))
      ∧ ∀ (first second : List Char) (value : ℕ) (name : Option (List Char)),
        Ip.ipAddress first = some (.v6 value name) →
        Ip.ipAddress second = some (.v6 value name) →
        (normalizeWebHostname rules (String.ofList first) allowPort
            = normalizeWebHostname rules (String.ofList second) allowPort
          ↔ (Accepted rules 260 (pyStrip (String.ofList first)).toList
              ↔ Accepted rules 260 (pyStrip (String.ofList second)).toList)
            ∧ (Accepted rules 260 (pyStrip (String.ofList first)).toList →
              (Ip.host first).map Char.toLower = (Ip.host second).map Char.toLower)) := by
  have hbare : ∀ {text : List Char} {value : ℕ} {name : Option (List Char)},
      Ip.ipAddress text = some (.v6 value name) → ∀ result,
      normalizeWebHostname rules (String.ofList text) allowPort = some result
        ↔ Accepted rules 260 (pyStrip (String.ofList text)).toList
          ∧ result.toList = lowered rules (literal (pyStrip (String.ofList text)).toList) :=
    fun h result => normalize_bare allowPort (bare_ipv6 h).1 (bare_ipv6 h).2
  refine ⟨fun value result again h => (normalize_result_iff again h).trans (pyStrip_result_iff h),
    ?_, ?_, ?_, ?_⟩
  · intro first second hfirst hsecond hsame
    rw [normalize_dns allowPort hfirst, normalize_dns allowPort hsecond, hsame]
    by_cases h1 : first.length ≤ 253 <;> by_cases h2 : second.length ≤ 253 <;> simp [h1, h2]
  · intro text h
    rw [(normalize_ipv4 allowPort h).1, (normalize_ipv4 allowPort h).2]
    cases rules.bracketsAllowed ('[' :: text ++ [']']) <;> simp
  · intro text value name h
    rw [eq_iff_of_some (hbare h) fun result => normalize_wrapped allowPort]
    refine and_congr_right fun hboth => ?_
    rw [hboth]
    refine imp_congr_right fun _ => ?_
    -- Only the zone tells the two apart.
    have hwhole : literal text = Ip.host text ++ literal (Ip.zone text)
        ∧ lowered rules (literal text)
          = (Ip.host text).map Char.toLower ++ literal (Ip.zone text) := by
      have hparts := @lowered_literal rules _ _ _ _ h (zone_head text)
      rwa [host_append_zone] at hparts
    obtain ⟨hstripped, hlower⟩ := @lowered_literal rules _ _ _ _ h (head_of_stripped_zone text)
    rw [pyStrip_ipv6 h, hlower, hstripped, hwhole.2, hwhole.1, List.append_cancel_left_eq,
      List.append_cancel_left_eq]
  · intro first second value name hfirst hsecond
    have hzone := zone_of_name (host_of_ipAddress hfirst).2.1 (host_of_ipAddress hsecond).2.1
    rw [eq_iff_of_some (hbare hfirst) (hbare hsecond)]
    refine and_congr_right fun _ => imp_congr_right fun _ => ?_
    have hone := (@lowered_literal rules _ _ _ _ hfirst (head_of_stripped_zone first)).2
    have htwo := (@lowered_literal rules _ _ _ _ hsecond (head_of_stripped_zone second)).2
    rw [pyStrip_ipv6 hfirst, pyStrip_ipv6 hsecond, hone, htwo, hzone, List.append_left_inj]

/-! ### An address with two hostnames -/

/-- The check of `urlsplit` that lets IPv6 literals stand in brackets only. -/
private def ipv6InBrackets (netloc : List Char) : Bool :=
  match Ip.ipAddress ((netloc.drop 1).takeWhile (· ≠ ']')) with
  | some (.v6 _ _) => true
  | _ => false

private theorem ascii_of_map_toLower (text : List Char)
    (h : ∀ c ∈ text.map Char.toLower, Ip.isIpChar c = true) : ∀ c ∈ text, c.toNat < 128 := by
  intro c hc
  have hcode := code_of_isIpChar (h c.toLower (List.mem_map_of_mem hc))
  rw [Ip.toNat_toLower] at hcode
  split_ifs at hcode <;> omega

private theorem not_upper_of_map_toLower (text : List Char) :
    ∀ c ∈ text.map Char.toLower, ¬(65 ≤ c.toNat ∧ c.toNat ≤ 90) := by
  intro c hc
  obtain ⟨d, -, rfl⟩ := List.mem_map.mp hc
  rw [Ip.toNat_toLower]
  split_ifs <;> omega

private theorem mem_of_map_toLower (text : List Char) :
    ∀ c ∈ text.map Char.toLower, c.toNat < 128 → ¬(97 ≤ c.toNat ∧ c.toNat ≤ 122) → c ∈ text := by
  intro c hc hascii hletter
  obtain ⟨d, hd, rfl⟩ := List.mem_map.mp hc
  have hsame : d.toLower = d := by
    refine Char.toNat_inj.mp ?_
    rw [Ip.toNat_toLower] at hletter ⊢
    split_ifs at hletter ⊢ <;> omega
  rwa [hsame]

private theorem control_eq_false (c : Char) (hlow : 32 < c.toNat) (hhigh : c.toNat < 127) :
    (decide (c.toNat < 32) || (decide (127 ≤ c.toNat) && decide (c.toNat < 160))) = false := by
  simp only [Bool.or_eq_false_iff, Bool.and_eq_false_iff, decide_eq_false_iff_not]
  omega

private theorem ipv6InBrackets_eq_true (text : List Char) (value : ℕ) (zone : Option (List Char))
    (hclose : ']' ∉ text) (h : Ip.ipAddress text = some (.v6 value zone)) :
    ipv6InBrackets ('[' :: text ++ [']']) = true := by
  have hall : ∀ c ∈ text, decide (c ≠ ']') = true := by
    intro c hc
    exact decide_eq_true fun heq => hclose (heq ▸ hc)
  have hinside :
      ((('[' :: text ++ [']']).drop 1).takeWhile fun c => decide (c ≠ ']')) = text := by
    rw [List.cons_append, List.drop_one, List.tail_cons, List.takeWhile_append_of_pos hall]
    simp
  rw [ipv6InBrackets, hinside, h]

/-- The rules of texts of ASCII, with a check that lets IPv6 literals stand in brackets only. -/
def asciiRules : UrlRules where
  lower text := text.map Char.toLower
  isOther c := c.toNat < 32 || (127 ≤ c.toNat && c.toNat < 160)
  unsafeForm _ := false
  bracketsAllowed := ipv6InBrackets
  lower_ascii _ _ := rfl
  ascii_of_lower := ascii_of_map_toLower
  not_upper := not_upper_of_map_toLower
  mem_of_lower := mem_of_map_toLower
  isOther_ascii := control_eq_false
  unsafe_ascii _ _ _ := rfl
  brackets_ipv6 := ipv6InBrackets_eq_true

/-- The loopback address has two hostnames, so a trusted host that is configured with one of them
does not admit the other. -/
theorem loopback_split :
    Ip.ipAddress "::1".toList = Ip.ipAddress "0:0:0:0:0:0:0:1".toList
      ∧ normalizeWebHostname asciiRules "::1" true = some "::1"
      ∧ normalizeWebHostname asciiRules "0:0:0:0:0:0:0:1" true = some "0:0:0:0:0:0:0:1"
      ∧ normalizeWebHostname asciiRules "::1" true
        ≠ normalizeWebHostname asciiRules "0:0:0:0:0:0:0:1" true := by
  refine ⟨?_, ?_, ?_, ?_⟩ <;> decide +kernel

/-- A name and an IPv6 literal whose spellings agree, and a literal in brackets with a blank zone,
which does not. -/
theorem canonical_iff_local :
    normalizeWebHostname asciiRules "gpu.local" false = some "gpu.local"
      ∧ normalizeWebHostname asciiRules (String.ofList "GPU.Local.".toList) true
        = normalizeWebHostname asciiRules (String.ofList "gpu.local".toList) true
      ∧ normalizeWebHostname asciiRules (String.ofList "FE80::A".toList) true
        = normalizeWebHostname asciiRules (String.ofList "fe80::a".toList) true
      ∧ normalizeWebHostname asciiRules (String.ofList "fe80::1%a ".toList) true
        ≠ normalizeWebHostname asciiRules (String.ofList ('[' :: "fe80::1%a ".toList ++ [']']))
          true := by
  refine ⟨?_, ?_, ?_, ?_⟩
  · exact ((canonical_iff asciiRules true).1 "GPU.Local." "gpu.local" false
      (by decide +kernel)).mpr fun hends => absurd hends.1 (by decide +kernel)
  · exact ((canonical_iff asciiRules true).2.1 "GPU.Local.".toList "gpu.local".toList
      (by decide +kernel) (by decide +kernel) (by decide +kernel)).mpr (by decide +kernel)
  · exact ((canonical_iff asciiRules true).2.2.2.2 "FE80::A".toList "fe80::a".toList
      (0xfe80 * 2 ^ 112 + 10) none (by decide +kernel) (by decide +kernel)).mpr
      ⟨by decide +kernel, fun _ => by decide +kernel⟩
  · intro hsame
    have hliteral := (((canonical_iff asciiRules true).2.2.2.1 "fe80::1%a ".toList
      (0xfe80 * 2 ^ 112 + 1) (some ['a', ' ']) (by decide +kernel)).mp hsame).2
      (by decide +kernel)
    exact absurd hliteral (by decide +kernel)

end Mocop.Hostnames
