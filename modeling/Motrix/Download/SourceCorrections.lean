import Motrix.Download.SourceAdmission

/-!
# Corrections of sources

Every correction clears the check that asked for it and all checks before it,
so that a chain of them soon comes to an end.
-/

namespace Motrix.DownloadSource

open List Lib Lib.AsciiUnits

section Corrections

variable {parseUrl : Text → Option Url} {parseMagnet : Text → Option Bool}
  {raw scheme : Text} {protocols : List SourceProtocol}

/-! ## Magnet links -/

/-- The case of the scheme means nothing to the parser of magnet links. -/
def CaseBlind (parseMagnet : Text → Option Bool) : Prop :=
  ∀ scheme rest, scheme.map lowerAscii = SourceProtocol.magnet.text →
    parseMagnet (scheme ++ 0x3a :: rest) =
      parseMagnet (SourceProtocol.magnet.text ++ 0x3a :: rest)

theorem magnet_again (blind : CaseBlind parseMagnet)
    {sourceUrl requestUrl host : Text}
    (accepted : analyzeDownloadSource parseUrl parseMagnet raw protocols =
      .accepted .magnet sourceUrl requestUrl host) :
    analyzeDownloadSource parseUrl parseMagnet sourceUrl protocols =
      .accepted .magnet sourceUrl requestUrl host := by
  obtain ⟨short, bytes, clean, scheme, protocol, named, found, allowed,
    outcome⟩ := analyze_cases accepted nofun
  rcases outcome with ⟨_, _, offered⟩ | ⟨whole, outcome⟩
  · cases offered
  · split at outcome
    · rename_i isMagnet
      subst isMagnet
      obtain ⟨marked, version, _, source, rfl, rfl⟩ :=
        analyzeMagnet_cases outcome
      have name := sourceProtocol_text found
      obtain ⟨valid, rest, rfl⟩ := schemeOf_valid named
      have tail : (scheme ++ 0x3a :: rest).drop (scheme.length + 1) =
          rest := by
        simp [drop_append]
      rw [tail] at marked source
      subst source
      have lengths : SourceProtocol.magnet.text.length = scheme.length := by
        simpa using congrArg List.length name
      have printable : ∀ {scheme : Text}, IsScheme scheme →
          ∀ unit ∈ scheme, isPrintable unit = true :=
        fun valid unit member => isPrintable_scheme (valid.units unit member)
      have closed : ∀ {scheme : Text}, IsScheme scheme → Closed scheme := by
        intro scheme valid
        refine closed_of_noPercent fun unit member => ?_
        rintro rfl
        exact absurd (valid.units _ member) (by decide)
      have valid' := protocol_valid .magnet
      have tail' : (SourceProtocol.magnet.text ++ 0x3a :: rest).drop
          (SourceProtocol.magnet.text.length + 1) = rest := by
        simp [drop_append]
      have version' := (blind scheme rest name.symm).symm.trans version
      have whole' : escaped (SourceProtocol.magnet.text ++ 0x3a :: rest) =
          true := by
        rw [closed valid']
        rwa [closed valid] at whole
      have clean' : invalidUnit 0 (SourceProtocol.magnet.text ++
          0x3a :: rest) = none :=
        (invalidUnit_front (printable valid') _ _).mpr
          ((invalidUnit_front (printable valid) _ _).mp clean)
      have short' : ¬ ((SourceProtocol.magnet.text ++ 0x3a :: rest).length >
          maxDownloadUrlBytes ∨ Utf16.byteLength (SourceProtocol.magnet.text ++
            0x3a :: rest) > maxDownloadUrlBytes) := by
        rw [byteLength_front (printable valid)] at bytes
        rw [byteLength_front (printable valid'), length_append, lengths]
        rw [length_append] at short
        omega
      simp only [analyzeDownloadSource, short', ↓reduceIte, clean',
        schemeOf_written valid', protocol_lower, sourceProtocol_self,
        Option.filter, allowed, badPercent_eq_none.mpr whole', analyzeMagnet,
        tail', marked, version', ne_eq, not_true_eq_false]
    · rename_i other
      exact absurd (analyzeUrl_accepted outcome).1.symm other

/-! ## The progress of corrections -/

/-- How many of the checks that offer corrections a text passes. -/
def level (raw : Text) : Nat :=
  if escaped raw = false then 0
  else if (structuralPart raw).contains 0x5c then 1
  else
    match urlParts raw with
    | none => 2
    | some parts =>
        if parts.query = [0x3f] then 3
        else if raw.any isUnescaped then 4
        else 5

theorem level_le (raw : Text) : level raw ≤ 5 := by
  unfold level
  repeat' split
  all_goals omega

theorem level_escaped {text : Text} (whole : escaped text = true) :
    1 ≤ level text := by
  unfold level
  rw [if_neg (by simp [whole])]
  repeat' split
  all_goals omega

theorem level_structural {text : Text} (whole : escaped text = true)
    (slashed : (structuralPart text).contains 0x5c = false) :
    2 ≤ level text := by
  unfold level
  rw [if_neg (by simp [whole]), if_neg (ne_true_of_eq_false slashed)]
  repeat' split
  all_goals omega

theorem level_parts {text : Text} {parts : Parts}
    (whole : escaped text = true)
    (slashed : (structuralPart text).contains 0x5c = false)
    (parted : urlParts text = some parts) :
    level text = if parts.query = [0x3f] then 3
      else if text.any isUnescaped then 4 else 5 := by
  unfold level
  rw [if_neg (by simp [whole]), if_neg (ne_true_of_eq_false slashed),
    parted]

/-! ## What corrections keep -/

theorem isHexDigit_apart {unit wanted : UInt16}
    (hex : isHexDigit unit = true) (apart : isHexDigit wanted = false) :
    unit ≠ wanted := by
  rintro rfl
  simp [hex] at apart

theorem suffix_starts (raw : Text) :
    ∀ unit ∈ (raw.dropWhile (!endsPath ·)).head?,
      isHexDigit unit = false := by
  intro unit head
  have ends := dropWhile_starts endsPath raw unit head
  simp only [endsPath, contains_eq_mem, mem_cons, not_mem_nil, or_false,
    decide_eq_true_eq] at ends
  rcases ends with rfl | rfl <;> decide

/-- A backslash is replaced by something that has none. -/
theorem level_backslash {piece : UInt16 → Text}
    (kept : ∀ unit, unit ≠ 0x5c → piece unit = [unit])
    (closed : Closed (piece 0x5c))
    (plain : ∀ unit ∈ piece 0x5c, endsPath unit = false ∧ unit ≠ 0x5c)
    (whole : escaped raw = true) :
    2 ≤ level ((structuralPart raw).flatMap piece ++
      raw.dropWhile (!endsPath ·)) := by
  have units : ∀ unit ∈ (structuralPart raw).flatMap piece,
      endsPath unit = false ∧ unit ≠ 0x5c := by
    intro unit member
    obtain ⟨source, inside, member⟩ := mem_flatMap.mp member
    by_cases backslash : source = 0x5c
    · rw [backslash] at member
      exact plain unit member
    · rw [kept source backslash, mem_singleton] at member
      rw [member]
      exact ⟨takeWhile_inside source inside, backslash⟩
  have split : structuralPart raw ++ raw.dropWhile (!endsPath ·) = raw :=
    takeWhile_append_dropWhile
  rw [← split] at whole
  have front : escaped ((structuralPart raw).flatMap piece) = true := by
    refine escaped_flatMap
      (fun unit hex => kept unit (isHexDigit_apart hex (by decide)))
      (fun unit => ?_) (escaped_front whole (suffix_starts raw))
    by_cases backslash : unit = 0x5c
    · exact .inr (backslash ▸ closed)
    · exact .inl (kept unit backslash)
  refine level_structural (escaped_append front (escaped_behind whole)) ?_
  rw [structuralPart, takeWhile_until (fun unit member => (units unit member).1)
    (dropWhile_starts endsPath raw)]
  refine eq_false_of_ne_true fun backslash => ?_
  exact (units _ (contains_iff_mem.mp backslash)).2 rfl

theorem level_backslashCorrections (whole : escaped raw = true) :
    ∀ correction ∈ backslashCorrections raw scheme,
      2 ≤ level correction.url := by
  have separators : 2 ≤ level ((structuralPart raw).map
      (fun unit => if unit = 0x5c then 0x2f else unit) ++
        raw.dropWhile (!endsPath ·)) := by
    rw [map_eq_flatMap]
    refine level_backslash (fun unit other => by rw [if_neg other]) ?_ ?_ whole
    · exact closed_of_noPercent (by simp)
    · simp [endsPath]
  have literal : 2 ≤ level ((structuralPart raw).flatMap
      (fun unit => if unit = 0x5c then [0x25, 0x35, 0x43] else [unit]) ++
        raw.dropWhile (!endsPath ·)) := by
    refine level_backslash (fun unit other => by rw [if_neg other]) ?_ ?_ whole
    · exact percentByte_closed 0x5c
    · simp [endsPath]
  unfold backslashCorrections
  dsimp only
  split
  · simp only [forall_mem_cons]
    exact ⟨separators, literal, by simp⟩
  · simp only [forall_mem_cons]
    exact ⟨separators, by simp⟩

theorem dropEmptyQuery_front {front rest : Text}
    (inside : ∀ unit ∈ front, endsPath unit = false)
    (hashed : ∀ unit ∈ rest.head?, unit = 0x23) :
    dropEmptyQuery (front ++ 0x3f :: rest) = front ++ rest := by
  induction front with
  | nil =>
      cases rest with
      | nil => rfl
      | cons first rest =>
          obtain rfl := hashed first rfl
          simp [dropEmptyQuery]
  | cons unit front induction =>
      rw [forall_mem_cons] at inside
      have apart : unit ≠ 0x3f := by
        rintro rfl
        exact absurd inside.1 (by decide)
      simp [dropEmptyQuery, apart, induction inside.2]

/-- Without its empty query a text passes all checks before that one. -/
theorem level_dropEmptyQuery {parts : Parts}
    (named : schemeOf raw = some scheme)
    (whole : escaped raw = true)
    (slashed : (structuralPart raw).contains 0x5c = false)
    (split : urlParts raw = some parts) (mark : parts.query = [0x3f]) :
    4 ≤ level (dropEmptyQuery raw) := by
  obtain ⟨parted, delimited⟩ := written_of_urlParts named split
  have valid := (schemeOf_valid named).1
  let rest : Parts := { parts with query := [] }
  have delimited' : rest.Delimited :=
    { authority := delimited.authority
      nonempty := delimited.nonempty
      rooted := delimited.rooted
      path := delimited.path
      marked := by simp [rest]
      query := by simp [rest]
      hashed := delimited.hashed
      fragment := delimited.fragment }
  have dropped : dropEmptyQuery raw = written scheme rest := by
    rw [parted, written_front, mark, singleton_append,
      dropEmptyQuery_front (front_inside valid delimited) delimited.hashed,
      written_front]
    rfl
  rw [parted, structuralPart_written valid delimited] at slashed
  rw [parted, written_front] at whole
  have front := escaped_front whole fun unit head => by
    rcases head?_append_cases head with head | head
    · rw [delimited.marked unit head]
      decide
    · rw [delimited.hashed unit head]
      decide
  have fragment := escaped_behind (escaped_behind whole)
  have whole' : escaped (dropEmptyQuery raw) = true := by
    rw [dropped, written_front]
    exact escaped_append front fragment
  have slashed' : (structuralPart (dropEmptyQuery raw)).contains 0x5c =
      false := by
    rw [dropped, structuralPart_written valid delimited']
    exact slashed
  rw [level_parts whole' slashed'
    (dropped ▸ urlParts_written valid delimited')]
  have unmarked : rest.query ≠ [0x3f] := by simp [rest]
  rw [if_neg unmarked]
  split <;> omega

/-! ## Escaping characters -/

theorem encodeUnescaped_cons {unit : UInt16} (kept : isUnescaped unit = false)
    (rest : Text) :
    encodeUnescaped (unit :: rest) = unit :: encodeUnescaped rest := by
  simp [encodeUnescaped, kept]

theorem mem_encodeUnescaped {part : Text} {unit : UInt16}
    (member : unit ∈ encodeUnescaped part) :
    (unit ∈ part ∧ isUnescaped unit = false) ∨ isEscapeUnit unit = true := by
  obtain ⟨source, inside, member⟩ := mem_flatMap.mp member
  split at member
  · exact .inr (mem_encodeURIComponent member)
  · rename_i kept
    obtain rfl := mem_singleton.mp member
    exact .inl ⟨inside, eq_false_of_ne_true kept⟩

theorem encodeUnescaped_eq_nil {part : Text}
    (empty : encodeUnescaped part = []) : part = [] := by
  cases part with
  | nil => rfl
  | cons unit rest =>
      rw [encodeUnescaped, flatMap_cons, append_eq_nil_iff] at empty
      have first := empty.1
      split at first
      · exact absurd first (encodeURIComponent_ne _)
      · cases first

theorem encodeUnescaped_head {part : Text} {delimiter : UInt16}
    (kept : isUnescaped delimiter = false)
    (starts : ∀ unit ∈ part.head?, unit = delimiter) :
    ∀ unit ∈ (encodeUnescaped part).head?, unit = delimiter := by
  cases part with
  | nil => simp [encodeUnescaped]
  | cons first rest =>
      obtain rfl := starts first rfl
      simp [encodeUnescaped_cons kept]

/-- A property that holds of the text and of escapes holds of its encoding. -/
theorem encodeUnescaped_units {part : Text} {stops : UInt16 → Bool}
    (inside : ∀ unit ∈ part, stops unit = false)
    (reserved : ∀ unit, stops unit = true → unit ∈ reservedUnits) :
    ∀ unit ∈ encodeUnescaped part, stops unit = false := by
  intro unit member
  rcases mem_encodeUnescaped member with ⟨member, _⟩ | escape
  · exact inside unit member
  · exact eq_false_of_ne_true fun stop =>
      escapeUnit_notMem escape (reserved unit stop)

theorem mem_reserved {unit : UInt16} (listed : Text)
    (within : listed.all (reservedUnits.contains ·) = true)
    (member : listed.contains unit = true) : unit ∈ reservedUnits :=
  contains_iff_mem.mp
    (all_eq_true.mp within unit (contains_iff_mem.mp member))

def Parts.encoded (parts : Parts) : Parts :=
  { authority := encodeUnescaped parts.authority
    path := encodeUnescaped parts.path
    query := encodeUnescaped parts.query
    fragment := encodeUnescaped parts.fragment }

theorem encoded_delimited {parts : Parts} (delimited : parts.Delimited) :
    parts.encoded.Delimited :=
  { authority := encodeUnescaped_units delimited.authority fun _ =>
      mem_reserved _ (by decide)
    nonempty := fun empty => delimited.nonempty (encodeUnescaped_eq_nil empty)
    rooted := encodeUnescaped_head rfl delimited.rooted
    path := encodeUnescaped_units delimited.path fun _ =>
      mem_reserved _ (by decide)
    marked := encodeUnescaped_head rfl delimited.marked
    query := encodeUnescaped_units delimited.query fun unit hash => by
      rw [beq_iff_eq.mp hash]
      decide
    hashed := encodeUnescaped_head rfl delimited.hashed
    fragment := by
      have ends : ∀ unit ∈ parts.fragment, isLineTerminator unit = false := by
        simpa using delimited.fragment
      have shown : ∀ unit ∈ parts.encoded.fragment,
          isLineTerminator unit = false :=
        encodeUnescaped_units ends fun _ => mem_reserved _ (by decide)
      simpa using shown }

theorem encodeUnescaped_written {parts : Parts} (valid : IsScheme scheme) :
    encodeUnescaped (written scheme parts) = written scheme parts.encoded := by
  have kept : encodeUnescaped scheme = scheme := by
    have plain := fun unit member =>
      isUnescaped_scheme (valid.units unit member)
    clear valid
    induction scheme with
    | nil => rfl
    | cons unit rest induction =>
        rw [forall_mem_cons] at plain
        rw [encodeUnescaped_cons plain.1, induction plain.2]
  have appended : ∀ first second : Text, encodeUnescaped (first ++ second) =
      encodeUnescaped first ++ encodeUnescaped second :=
    fun _ _ => flatMap_append
  have colon : isUnescaped 0x3a = false := rfl
  have slash : isUnescaped 0x2f = false := rfl
  simp only [written, Parts.behind, appended, kept,
    encodeUnescaped_cons colon, encodeUnescaped_cons slash, Parts.encoded]

/-- With its characters escaped a text passes all checks before that one. -/
theorem level_encodeUnescaped {parts : Parts}
    (named : schemeOf raw = some scheme) (whole : escaped raw = true)
    (slashed : (structuralPart raw).contains 0x5c = false)
    (split : urlParts raw = some parts) (mark : parts.query ≠ [0x3f]) :
    level (encodeUnescaped raw) = 5 := by
  obtain ⟨parted, delimited⟩ := written_of_urlParts named split
  have valid := (schemeOf_valid named).1
  have spelled : encodeUnescaped raw = written scheme parts.encoded := by
    rw [parted, encodeUnescaped_written valid]
  have whole' : escaped (encodeUnescaped raw) = true := by
    refine escaped_flatMap (fun unit hex => if_neg ?_) (fun unit => ?_) whole
    · rw [isUnescaped_escape (by simp [isEscapeUnit, hex])]
      decide
    · split
      · exact .inr (encodeURIComponent_closed _)
      · exact .inl rfl
  have slashed' : (structuralPart (encodeUnescaped raw)).contains 0x5c =
      false := by
    rw [parted, structuralPart_written valid delimited] at slashed
    rw [spelled, structuralPart_written valid (encoded_delimited delimited)]
    have apart : ∀ part : Text, 0x5c ∉ part →
        ∀ unit ∈ encodeUnescaped part, unit ≠ 0x5c := by
      rintro part absent unit member rfl
      rcases mem_encodeUnescaped member with ⟨inside, _⟩ | escape
      · exact absent inside
      · exact absurd escape (by decide)
    simp only [front, contains_eq_mem, decide_eq_false_iff_not, mem_append,
      mem_cons, not_or] at slashed
    exact front_noBackslash valid (apart _ slashed.2.2.2.2.1)
      (apart _ slashed.2.2.2.2.2)
  have plain : (encodeUnescaped raw).any isUnescaped = false := by
    rw [any_eq_false]
    intro unit member
    rcases mem_encodeUnescaped member with ⟨_, plain⟩ | escape
    · simp [plain]
    · simp [isUnescaped_escape escape]
  have mark' : parts.encoded.query ≠ [0x3f] := by
    cases query : parts.query with
    | nil => simp [Parts.encoded, query, encodeUnescaped]
    | cons first rest =>
        obtain rfl := delimited.marked first (by rw [query]; rfl)
        intro single
        rw [Parts.encoded, query, encodeUnescaped_cons rfl] at single
        rw [query, encodeUnescaped_eq_nil (cons.inj single).2] at mark
        exact mark rfl
  rw [level_parts whole' slashed'
    (spelled ▸ urlParts_written valid (encoded_delimited delimited)),
    if_neg mark', plain]
  rfl

/-! ## Chains of corrections -/

theorem level_href {url : Url} (laws : UrlLaws parseUrl)
    (parsed : Parsed parseUrl raw scheme url)
    (whole : escaped raw = true) : 3 ≤ level url.href := by
  obtain ⟨printable, userinfo, query, fragment, href, user, marked, hash,
    hashed⟩ := laws.href parsed
  have valid : IsScheme (scheme.map lowerAscii) := by
    have web := parsed.web
    simp only [mem_cons, not_mem_nil, or_false] at web
    rcases web with http | https | ftp
    · exact http ▸ protocol_valid .http
    · exact https ▸ protocol_valid .https
    · exact ftp ▸ protocol_valid .ftp
  have authority : ∀ unit ∈ userinfo ++ url.host,
      endsAuthority unit = false ∧ unit ≠ 0x5c := by
    intro unit member
    rcases mem_append.mp member with member | member
    · exact user unit member
    · have units := laws.hostUnits parsed unit member
      exact ⟨units.1, units.2.2⟩
  have delimited : Parts.Delimited
      ⟨userinfo ++ url.host, url.pathname, query, fragment⟩ :=
    { authority := fun unit member => (authority unit member).1
      nonempty := append_ne_nil_of_right_ne_nil _ (host_ne laws parsed)
      rooted := by simp [(laws.pathname parsed).1]
      path := fun unit member => ((laws.pathname parsed).2 unit member).1
      marked := marked
      query := fun unit member =>
        beq_eq_false_iff_ne.mpr (ne_of_mem_of_not_mem member hash)
      hashed := hashed
      fragment := by
        rw [any_eq_false]
        intro unit member
        have shown := printable unit (by
          rw [href, written]
          simp [Parts.behind, member])
        simp [isLineTerminator_printable shown] }
  have slashed : (structuralPart url.href).contains 0x5c = false := by
    rw [href, structuralPart_written valid delimited]
    exact front_noBackslash valid (fun unit member => (authority unit member).2)
      fun unit member => ((laws.pathname parsed).2 unit member).2
  rw [level_parts (laws.escapes parsed whole) slashed
    (href ▸ urlParts_written valid delimited)]
  repeat' split
  all_goals omega

/-- The texts that an analysis offers instead of another. -/
def Offers (parseUrl : Text → Option Url) (parseMagnet : Text → Option Bool)
    (protocols : List SourceProtocol) (raw next : Text) : Prop :=
  ∃ diagnostic corrections,
    analyzeDownloadSource parseUrl parseMagnet raw protocols =
      .needsCorrection diagnostic corrections ∧
    ∃ correction ∈ corrections, correction.url = next

theorem offers_level (laws : UrlLaws parseUrl) {next : Text}
    (offers : Offers parseUrl parseMagnet protocols raw next)
    (plainHost : ∀ url ∈ parseUrl raw, url.host.any isUnescaped = false) :
    level raw < level next ∨
      ∀ other, ¬ Offers parseUrl parseMagnet protocols next other := by
  obtain ⟨diagnostic, corrections, analyzed, correction, member, rfl⟩ := offers
  obtain ⟨_, _, clean, scheme, protocol, named, found, _, outcome⟩ :=
    analyze_cases analyzed nofun
  rcases outcome with ⟨bad, _, offered⟩ | ⟨whole, outcome⟩
  · cases offered
    obtain rfl := mem_singleton.mp member
    left
    rw [level, if_pos bad]
    exact level_escaped (escapePercents_escaped raw)
  · split at outcome
    · unfold analyzeMagnet at outcome
      dsimp only at outcome
      split at outcome
      · cases outcome
      · split at outcome <;> cases outcome
    · rename_i other
      have text := sourceProtocol_text found
      rcases analyzeUrl_cases outcome nofun with ⟨slashed, _, offered⟩ |
        ⟨slashed, url, parsed, outcome⟩
      · cases offered
        left
        have below : level raw = 1 := by
          rw [level, if_neg (by simp [whole]), if_pos slashed]
        rw [below]
        exact level_backslashCorrections whole _ member
      · have parsedUrl : Parsed parseUrl raw scheme url :=
          ⟨clean, named, text ▸ web_of_protocol other, parsed⟩
        rcases outcome with ⟨apart, _, offered⟩ | ⟨parts, split, outcome⟩
        · cases offered
          obtain rfl := mem_singleton.mp member
          left
          have unparted := apart.resolve_right (laws.hostname parsedUrl).1
          have below : level raw = 2 := by
            rw [level, if_neg (by simp [whole]),
              if_neg (ne_true_of_eq_false slashed), unparted]
          rw [below]
          exact level_href laws parsedUrl whole
        · have reached := level_parts whole slashed split
          rcases analyzeParts_cases outcome nofun with ⟨mark, _, offered⟩ |
            ⟨mark, noUser, ⟨unescaped, _, offered⟩ | ⟨plain, ⟨_, offered⟩ |
              ⟨_, _, accepted, _⟩⟩⟩
          · cases offered
            obtain rfl := mem_singleton.mp member
            left
            rw [reached, if_pos mark]
            exact level_dropEmptyQuery named whole slashed split mark
          · cases offered
            obtain rfl := mem_singleton.mp member
            left
            rw [reached, if_neg mark, if_pos unescaped,
              level_encodeUnescaped named whole slashed split mark]
            omega
          · cases offered
            obtain rfl := mem_singleton.mp member
            right
            rintro other ⟨_, _, again, _⟩
            have passed : Passed parseUrl raw scheme protocol url parts :=
              ⟨parsedUrl, found, whole, split, mark, noUser, plain⟩
            rw [passed.analyze_href laws (plainHost url parsed)] at again
            split_ifs at again
            all_goals cases again
          · cases accepted

/-- No chain of corrections is longer than the checks that offer them. -/
theorem chain_short (laws : UrlLaws parseUrl) (chain : List Text) :
    ∀ raw, IsChain (Offers parseUrl parseMagnet protocols) (raw :: chain) →
      (∀ text ∈ raw :: chain, ∀ url ∈ parseUrl text,
        url.host.any isUnescaped = false) →
      chain.length + level raw ≤ 6 := by
  induction chain with
  | nil =>
      intro raw _ _
      have most := level_le raw
      simp
      omega
  | cons next rest induction =>
      intro raw offered plainHosts
      rw [isChain_cons_cons] at offered
      rw [forall_mem_cons] at plainHosts
      have others := induction next offered.2 plainHosts.2
      rw [length_cons]
      rcases offers_level laws offered.1 plainHosts.1 with higher | settled
      · omega
      · cases rest with
        | nil =>
            have most := level_le raw
            simp
            omega
        | cons other rest =>
            exact absurd (isChain_cons_cons.mp offered.2).1 (settled other)

/-! ## Accepted and corrected sources -/

/-- Whenever a correction is asked for, there is one. -/
def Offering (result : DownloadSourceAnalysis) : Prop :=
  ∀ diagnostic corrections,
    result = .needsCorrection diagnostic corrections → corrections ≠ []

theorem failure_offering (reason : SourceReason) (start stop : Nat)
    (corrections : List SourceCorrection) :
    Offering (failure reason start stop corrections) := by
  intro diagnostic offered failed
  unfold failure at failed
  dsimp only at failed
  split at failed
  · cases failed
  · rename_i some'
    cases failed
    exact some'

theorem analyzeUrl_offering (protocol : SourceProtocol) :
    Offering (analyzeUrl parseUrl raw scheme protocol) := by
  unfold analyzeUrl analyzeParts reject
  dsimp only
  repeat' split
  all_goals first | exact failure_offering _ _ _ _ | exact nofun

theorem analyze_offering :
    Offering (analyzeDownloadSource parseUrl parseMagnet raw protocols) := by
  unfold analyzeDownloadSource analyzeMagnet reject
  dsimp only
  repeat' split
  all_goals first
    | exact failure_offering _ _ _ _
    | exact analyzeUrl_offering _
    | exact nofun

end Corrections

/-! ## Canonical URLs -/

def isHostUnit (unit : UInt16) : Bool :=
  isLower unit || isDigit unit || unit == 0x2e || unit == 0x2d

def isCanonical (raw scheme : Text) (parts : Parts) : Bool :=
  scheme.map lowerAscii == scheme && parts.authority.all isHostUnit &&
    parts.path.head? == some 0x2f && !parts.path.contains 0x5c &&
    parts.query != [0x3f] &&
    raw.all fun unit => isPrintable unit && !isUnescaped unit

/-- The parts of a URL that stands in its canonical spelling. -/
def canonicalUrl (raw : Text) : Option Url := do
  let scheme ← schemeOf raw
  let parts ← urlParts raw
  if isCanonical raw scheme parts then
    some
      { hostname := parts.authority
        host := parts.authority
        pathname := parts.path
        search := parts.query
        href := raw }
  else none

theorem canonicalUrl_cases {raw : Text} {url : Url}
    (parsed : canonicalUrl raw = some url) :
    ∃ scheme parts, schemeOf raw = some scheme ∧
      urlParts raw = some parts ∧ isCanonical raw scheme parts = true ∧
      url = ⟨parts.authority, parts.authority, parts.path, parts.query,
        raw⟩ := by
  simp only [canonicalUrl, Option.bind_eq_bind, Option.bind_eq_some_iff]
    at parsed
  obtain ⟨scheme, named, parts, split, taken⟩ := parsed
  split at taken
  · rename_i canonical
    exact ⟨scheme, parts, named, split, canonical,
      (Option.some.inj taken).symm⟩
  · cases taken

theorem lowerAscii_hostUnit {unit : UInt16} (valid : isHostUnit unit = true) :
    lowerAscii unit = unit ∧ unit ≠ 0x3a ∧ endsAuthority unit = false ∧
      unit ≠ 0x40 ∧ unit ≠ 0x5c := by
  have apart : ∀ other : UInt16, isHostUnit other = false → unit ≠ other := by
    rintro other invalid rfl
    simp [valid] at invalid
  refine ⟨?_, apart _ (by decide), ?_, apart _ (by decide),
    apart _ (by decide)⟩
  · have small : isUpper unit = false := by
      simp only [isHostUnit, isLower, isDigit, Bool.or_eq_true,
        Bool.and_eq_true, decide_eq_true_eq, beq_iff_eq,
        UInt16.le_iff_toNat_le] at valid
      refine eq_false_of_ne_true fun upper => ?_
      simp only [isUpper, Bool.and_eq_true, decide_eq_true_eq,
        UInt16.le_iff_toNat_le] at upper
      rcases valid with ((⟨_, _⟩ | ⟨_, _⟩) | rfl) | rfl <;>
        simp at * <;> omega
    simp [lowerAscii, small]
  · simp [endsAuthority, apart 0x2f (by decide), apart 0x3f (by decide),
      apart 0x23 (by decide)]

/-- What is known of a text that this parser takes. -/
structure TakenApart (raw scheme : Text) (url : Url) (parts : Parts) :
    Prop where
  split : urlParts raw = some parts
  parted : raw = written scheme parts
  delimited : parts.Delimited
  lower : scheme.map lowerAscii = scheme
  authority : ∀ unit ∈ parts.authority, isHostUnit unit = true
  rooted : parts.path.head? = some 0x2f
  slashed : 0x5c ∉ parts.path
  mark : parts.query ≠ [0x3f]
  units : ∀ unit ∈ raw, isPrintable unit = true ∧ isUnescaped unit = false
  equal : url =
    ⟨parts.authority, parts.authority, parts.path, parts.query, raw⟩

theorem takenApart {raw scheme : Text} {url : Url}
    (parsed : Parsed canonicalUrl raw scheme url) :
    ∃ parts, TakenApart raw scheme url parts := by
  obtain ⟨scheme', parts, named, split, canonical, equal⟩ :=
    canonicalUrl_cases parsed.parsed
  obtain rfl := Option.some.inj (named.symm.trans parsed.named)
  obtain ⟨parted, delimited⟩ := written_of_urlParts named split
  simp only [isCanonical, Bool.and_eq_true, beq_iff_eq, all_eq_true,
    Bool.not_eq_true', contains_eq_mem, decide_eq_false_iff_not,
    bne_iff_ne] at canonical
  obtain ⟨⟨⟨⟨⟨lower, authority⟩, rooted⟩, slashed⟩, mark⟩, units⟩ := canonical
  exact ⟨parts, split, parted, delimited, lower, authority, rooted, slashed,
    mark, units, equal⟩

namespace TakenApart

variable {raw scheme : Text} {url : Url} {parts : Parts}

theorem printable (taken : TakenApart raw scheme url parts) :
    ∀ unit ∈ parts.behind,
      isPrintable unit = true ∧ isUnescaped unit = false := by
  intro unit member
  refine taken.units unit ?_
  rw [taken.parted, written]
  simp [member]

theorem noHash (taken : TakenApart raw scheme url parts) :
    0x23 ∉ parts.query :=
  fun member => absurd (taken.delimited.query _ member) (by decide)

theorem href (taken : TakenApart raw scheme url parts) :
    url.href = written (scheme.map lowerAscii)
      ⟨url.host, url.pathname, url.search,
        encodeUnicode parts.fragment⟩ := by
  have fragment : encodeUnicode parts.fragment = parts.fragment :=
    encodeUnicode_printable fun unit member =>
      (taken.printable unit (by simp [Parts.behind, member])).1
  rw [taken.equal, taken.lower, fragment]
  exact taken.parted

end TakenApart

theorem canonicalUrl_laws : UrlLaws canonicalUrl := by
  constructor
  case reparse =>
    intro raw scheme url parsed
    obtain ⟨parts, taken⟩ := takenApart parsed
    obtain rfl := taken.equal
    exact parsed.parsed
  case host =>
    intro raw scheme url parsed
    obtain ⟨parts, taken⟩ := takenApart parsed
    rw [taken.equal]
    exact ⟨[], (append_nil _).symm, by simp⟩
  case hostname =>
    intro raw scheme url parsed
    obtain ⟨parts, taken⟩ := takenApart parsed
    rw [taken.equal]
    have lowered : ∀ unit ∈ parts.authority, lowerAscii unit = unit :=
      fun unit member => (lowerAscii_hostUnit (taken.authority unit member)).1
    refine ⟨taken.delimited.nonempty,
      (map_congr_left lowered).trans (map_id' _), fun colon => ?_⟩
    exact absurd rfl (lowerAscii_hostUnit (taken.authority _ colon)).2.1
  case hostUnits =>
    intro raw scheme url parsed
    obtain ⟨parts, taken⟩ := takenApart parsed
    rw [taken.equal]
    exact fun unit member =>
      (lowerAscii_hostUnit (taken.authority unit member)).2.2
  case pathname =>
    intro raw scheme url parsed
    obtain ⟨parts, taken⟩ := takenApart parsed
    rw [taken.equal]
    exact ⟨taken.rooted, fun unit member =>
      ⟨taken.delimited.path unit member,
        ne_of_mem_of_not_mem member taken.slashed⟩⟩
  case search =>
    intro raw scheme url parsed
    obtain ⟨parts, taken⟩ := takenApart parsed
    rw [taken.equal]
    exact ⟨taken.delimited.marked, taken.mark, taken.noHash⟩
  case href =>
    intro raw scheme url parsed
    obtain ⟨parts, taken⟩ := takenApart parsed
    refine ⟨?_, [], parts.query, parts.fragment, ?_, by simp,
      taken.delimited.marked, taken.noHash, taken.delimited.hashed⟩
    · rw [taken.equal]
      exact fun unit member => (taken.units unit member).1
    · rw [taken.equal, taken.lower]
      exact taken.parted
  case escapes =>
    intro raw scheme url parsed whole
    obtain ⟨parts, taken⟩ := takenApart parsed
    rw [taken.equal]
    exact whole
  case plain =>
    intro raw scheme url parts parsed split _ _ _
    obtain ⟨parts', taken⟩ := takenApart parsed
    obtain rfl := Option.some.inj (taken.split.symm.trans split)
    refine ⟨taken.href, by rw [taken.equal], ?_⟩
    rw [taken.equal]
    intro unit member
    refine (taken.printable unit ?_).2
    rcases mem_append.mp member with path | query
    · simp [Parts.behind, path]
    · simp [Parts.behind, query]

def magnetLink : Text :=
  units "magnet:?xt=urn:btih:0123456789abcdef0123456789abcdef01234567&dn=é"

end Motrix.DownloadSource
