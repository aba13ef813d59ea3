import Tabular.Proofs.Json.Scanning
import Tabular.Proofs.Json.Written

/-!
# Reading what the grammar reads

- `Json.Reads.found`: the reader finds the phrases of the grammar whose numbers are written as
  integers.
- `Json.exists_parse`: **the reader gives what stands for the document of a text.**
- `Json.parse_toText`: a value is read back from its text.
-/

namespace Tabular

namespace Json

/-! ## Integers -/

theorem Integral.readValue_eq {cs rest : List Char} {n : Int64} {q : ℚ} (h : Integral cs q rest)
    (hq : q = n.toInt) (hrest : NumberEnds rest) (fuel depth : Nat) :
    readValue (fuel + 1) depth cs = .ok (.integer n.toInt, rest) := by
  have hlt := n.toInt_lt
  have hle := n.minValue_le_toInt
  cases h with
  | @plain _ _ m hwhole =>
    rw [← Int.cast_natCast, Rat.intCast_inj] at hq
    have hread := hwhole.readNumber_plain hrest (by show m < 18446744073709551616; omega)
    rw [hq] at hread
    cases cs with
    | nil => exact absurd rfl (Integral.plain hwhole).number.ne_nil
    | cons c cs =>
      -- no other kind of value begins with a digit
      have hdigit := hwhole.isDigit_head
      have hne : ∀ d : Char, d.isDigit = false → c ≠ d := by
        rintro d hd rfl
        exact absurd (hdigit.symm.trans hd) (by decide)
      have hblank : ¬ IsBlank c := by
        rintro (rfl | rfl | rfl | rfl) <;> exact hne _ rfl rfl
      simp [readValue, skipBlank_cons hblank, hne 'n' rfl, hne 't' rfl, hne 'f' rfl, hne '-' rfl,
        hne '"' rfl, hne '[' rfl, hne '\x7b' rfl, hdigit, hread]
  | @minus cs _ m hwhole hpos =>
    rw [← Int.cast_natCast, ← Int.cast_neg, Rat.intCast_inj] at hq
    have hread := hwhole.readNumber_minus hrest hpos (by rw [hq]; exact hle)
    rw [hq] at hread
    rw [readValue, skipBlank_cons (by simp [IsBlank])]
    exact hread

/-! ## Lists and objects -/

theorem next?_close {close : Char} {cs rest : List Char} (h : Blanks IsBlank cs (close :: rest))
    (hclose : ¬ IsBlank close) (position : Position) :
    next? close position cs = .ok (none, rest) := by
  simp [next?, h.skipBlank_cons hclose]

theorem next?_first {close c : Char} {cs rest : List Char} (h : Blanks IsBlank cs (c :: rest))
    (hc : ¬ IsBlank c) (hclose : c ≠ close) :
    next? close .first cs = .ok (some (c :: rest), []) := by
  simp [next?, h.skipBlank_cons hc, hclose]

theorem next?_later {close c : Char} {cs more rest : List Char}
    (hcomma : Blanks IsBlank cs (',' :: more)) (h : Blanks IsBlank more (c :: rest))
    (hc : ¬ IsBlank c) (hclose : c ≠ close) (hother : ',' ≠ close) :
    next? close .later cs = .ok (some (c :: rest), []) := by
  simp [next?, hcomma.skipBlank_cons (c := ',') (by simp [IsBlank]), h.skipBlank_cons hc, hclose,
    hother]

/-- The items of a list from the first one left. -/
def itemsFrom (fuel depth : Nat) (cs : List Char) : Except Fault (List Json × List Char) := do
  let (v, cs) ← readValue fuel depth cs
  let (vs, cs) ← readItems fuel depth .later cs
  return (v :: vs, cs)

/-- A member of an object. -/
def readMember (fuel depth : Nat) (cs : List Char) :
    Except Fault ((String × Json) × List Char) := do
  let (k, cs) ← readName (skipBlank cs)
  let cs ← readColon cs
  let (v, cs) ← readValue fuel depth cs
  return ((k, v), cs)

/-- The members of an object from the first one left. -/
def membersFrom (fuel depth : Nat) (cs : List Char) :
    Except Fault (List (String × Json) × List Char) := do
  let (m, cs) ← readMember fuel depth cs
  let (ms, cs) ← readMembers fuel depth .later cs
  return (m :: ms, cs)

theorem readItems_eq {fuel depth : Nat} {position : Position} {cs inner : List Char} {c : Char}
    {rest : List Char} (hnext : next? ']' position cs = .ok (some (c :: rest), []))
    (hinner : Blanks IsBlank inner (c :: rest)) :
    readItems (fuel + 1) depth position cs = itemsFrom fuel depth inner := by
  rw [readItems, hnext, itemsFrom, readValue_skipBlank hinner.skipBlank_eq]
  rfl

theorem readMembers_eq {fuel depth : Nat} {position : Position} {cs inner : List Char} {c : Char}
    {rest : List Char} (hnext : next? '\x7d' position cs = .ok (some (c :: rest), []))
    (hinner : Blanks IsBlank inner (c :: rest)) (hc : ¬ IsBlank c) :
    readMembers (fuel + 1) depth position cs = membersFrom fuel depth inner := by
  rw [readMembers, hnext, membersFrom, readMember, hinner.skipBlank_cons hc]
  simp only [bind_assoc, pure_bind]
  rfl

theorem readItems_close {fuel depth : Nat} {position : Position} {cs rest : List Char}
    (h : Blanks IsBlank cs (']' :: rest)) :
    readItems (fuel + 1) depth position cs = .ok ([], rest) := by
  rw [readItems, next?_close h (by simp [IsBlank])]
  rfl

theorem readMembers_close {fuel depth : Nat} {position : Position} {cs rest : List Char}
    (h : Blanks IsBlank cs ('\x7d' :: rest)) :
    readMembers (fuel + 1) depth position cs = .ok ([], rest) := by
  rw [readMembers, next?_close h (by simp [IsBlank])]
  rfl

theorem itemsFrom_eq {fuel depth : Nat} {cs behind rest : List Char} {v : Json} {vs : List Json}
    (hv : readValue fuel depth cs = .ok (v, behind))
    (hvs : readItems fuel depth .later behind = .ok (vs, rest)) :
    itemsFrom fuel depth cs = .ok (v :: vs, rest) := by
  rw [itemsFrom, hv]
  show (readItems fuel depth .later behind).bind _ = _
  rw [hvs]
  rfl

theorem membersFrom_eq {fuel depth : Nat} {cs behind rest : List Char} {m : String × Json}
    {ms : List (String × Json)} (hm : readMember fuel depth cs = .ok (m, behind))
    (hms : readMembers fuel depth .later behind = .ok (ms, rest)) :
    membersFrom fuel depth cs = .ok (m :: ms, rest) := by
  rw [membersFrom, hm]
  show (readMembers fuel depth .later behind).bind _ = _
  rw [hms]
  rfl

theorem readMember_eq {fuel depth : Nat} {cs quoted behind inner rest k : List Char} {v : Json}
    (hbefore : Blanks IsBlank cs ('"' :: quoted)) (hk : Chars quoted k behind)
    (hcolon : Blanks IsBlank behind (':' :: inner))
    (hv : readValue fuel depth inner = .ok (v, rest)) :
    readMember fuel depth cs = .ok ((String.ofList k, v), rest) := by
  have hname : readName ('"' :: quoted) = .ok (String.ofList k, behind) := by
    rw [readName, readString, hk.readChars_eq]
    rfl
  have hafter : readColon behind = .ok inner := by
    rw [readColon, hcolon.skipBlank_cons (by simp [IsBlank])]
    rfl
  rw [readMember, hbefore.skipBlank_cons (by simp [IsBlank]), hname]
  show (readColon behind).bind _ = _
  rw [hafter]
  show (readValue fuel depth inner).bind _ = _
  rw [hv]
  rfl

theorem readValue_text {cs s rest : List Char} (h : Chars cs s rest) (fuel depth : Nat) :
    readValue (fuel + 1) depth ('"' :: cs) = .ok (.text (String.ofList s), rest) := by
  rw [readValue, skipBlank_cons (by simp [IsBlank])]
  show (readString cs).map _ = _
  rw [readString, h.readChars_eq]
  rfl

theorem readValue_list {fuel depth : Nat} {cs rest : List Char} {vs : List Json}
    (h : readItems fuel depth .first cs = .ok (vs, rest)) :
    readValue (fuel + 1) (depth + 1) ('[' :: cs) = .ok (.list vs, rest) := by
  rw [readValue, skipBlank_cons (by simp [IsBlank])]
  show (readItems fuel depth .first cs).map _ = _
  rw [h]
  rfl

theorem readValue_object {fuel depth : Nat} {cs rest : List Char} {ms : List (String × Json)}
    (h : readMembers fuel depth .first cs = .ok (ms, rest)) :
    readValue (fuel + 1) (depth + 1) ('\x7b' :: cs) = .ok (.object ms, rest) := by
  rw [readValue, skipBlank_cons (by simp [IsBlank])]
  show (readMembers fuel depth .first cs).map _ = _
  rw [h]
  rfl

/-! ## Whole phrases -/

/-- What the reader finds where a phrase stands, if it has two steps for every character. -/
def Found : Phrase → List Char → Document → List Char → Prop
  | .value, cs, d, rest => ∀ fuel depth, Interoperable depth d → 2 * cs.length ≤ fuel →
    ∃ v, StandsFor v d ∧ readValue fuel depth cs = .ok (v, rest)
  | .element, cs, d, rest => ∀ fuel depth, Interoperable depth d → 2 * cs.length ≤ fuel →
    ∃ v behind, StandsFor v d ∧ readValue fuel depth cs = .ok (v, behind) ∧
      Blanks IsBlank behind rest
  | .elements, cs, d, rest => ∀ fuel depth ds after, d = .array ds → rest = ']' :: after →
    (∀ d ∈ ds, Interoperable depth d) → 2 * cs.length ≤ fuel →
    ∃ vs, StandsFor (.list vs) d ∧ itemsFrom fuel depth cs = .ok (vs, after)
  | .member, cs, d, rest => ∀ fuel depth m, d = .object [m] → Interoperable depth m.2 →
    2 * cs.length ≤ fuel → ∃ v behind, StandsFor v m.2 ∧
      readMember fuel depth cs = .ok ((m.1, v), behind) ∧ Blanks IsBlank behind rest
  | .members, cs, d, rest => ∀ fuel depth ms after, d = .object ms → rest = '\x7d' :: after →
    (∀ m ∈ ms, Interoperable depth m.2) → 2 * cs.length ≤ fuel →
    ∃ vs, StandsFor (.object vs) d ∧ membersFrom fuel depth cs = .ok (vs, after)

theorem exists_add_two {c : Char} {cs : List Char} {fuel : Nat}
    (h : 2 * (c :: cs).length ≤ fuel) : ∃ left, fuel = left + 2 ∧ 2 * cs.length ≤ left := by
  rw [List.length_cons] at h
  exact ⟨fuel - 2, by omega, by omega⟩

theorem exists_add_one {c : Char} {cs rest : List Char} {fuel : Nat}
    (hle : (c :: rest).length ≤ cs.length) (h : 2 * cs.length ≤ fuel) :
    ∃ left, fuel = left + 1 := by
  rw [List.length_cons] at hle
  exact ⟨fuel - 1, by omega⟩

/-- The reader finds every phrase whose numbers are written as integers. -/
theorem Reads.found {phrase : Phrase} {cs rest : List Char} {d : Document}
    (h : Reads .integral phrase cs d rest) (hrest : EndsBefore phrase rest) :
    Found phrase cs d rest := by
  -- on the grammar; what follows a phrase is what the reader stops at
  induction h with
  | null rest =>
    intro fuel depth _ hfuel
    obtain ⟨fuel, rfl, -⟩ := exists_add_two hfuel
    exact ⟨.null, .null, rfl⟩
  | yes rest =>
    intro fuel depth _ hfuel
    obtain ⟨fuel, rfl, -⟩ := exists_add_two hfuel
    exact ⟨.bool true, .bool true, rfl⟩
  | no rest =>
    intro fuel depth _ hfuel
    obtain ⟨fuel, rfl, -⟩ := exists_add_two hfuel
    exact ⟨.bool false, .bool false, rfl⟩
  | @number cs rest q hq =>
    intro fuel depth hd hfuel
    obtain ⟨n, rfl⟩ : ∃ n : Int64, q = n.toInt := by
      cases hd with
      | number _ n => exact ⟨n, rfl⟩
    have hne := (Integral.number hq).ne_nil
    cases cs with
    | nil => exact absurd rfl hne
    | cons c cs =>
      obtain ⟨fuel, rfl, -⟩ := exists_add_two hfuel
      exact ⟨_, .integer n.toInt, Integral.readValue_eq hq rfl hrest.numberEnds (fuel + 1) depth⟩
  | text hchars =>
    intro fuel depth _ hfuel
    obtain ⟨fuel, rfl, -⟩ := exists_add_two hfuel
    exact ⟨_, .text _, readValue_text hchars (fuel + 1) depth⟩
  | noArray hblanks =>
    intro fuel depth hd hfuel
    obtain ⟨fuel, rfl, -⟩ := exists_add_two hfuel
    cases hd with
    | array => exact ⟨_, .noItem, readValue_list (readItems_close hblanks)⟩
  | array helements ih =>
    intro fuel depth hd hfuel
    obtain ⟨fuel, rfl, hleft⟩ := exists_add_two hfuel
    cases hd with
    | array hds =>
      obtain ⟨c, more, hblanks, hc, hbracket⟩ :=
        (helements.mono Dialect.integral_within_standard).head_elements
      obtain ⟨vs, hvs, hitems⟩ := ih (endsBefore_cons (.inl rfl)) fuel _ _ _ rfl rfl hds hleft
      refine ⟨_, hvs, readValue_list ?_⟩
      rw [readItems_eq (next?_first hblanks hc hbracket) hblanks, hitems]
  | noObject hblanks =>
    intro fuel depth hd hfuel
    obtain ⟨fuel, rfl, -⟩ := exists_add_two hfuel
    cases hd with
    | object => exact ⟨_, .noMember, readValue_object (readMembers_close hblanks)⟩
  | object hmembers ih =>
    intro fuel depth hd hfuel
    obtain ⟨fuel, rfl, hleft⟩ := exists_add_two hfuel
    cases hd with
    | object _ hms =>
      have hquote : ¬ IsBlank '"' := by simp [IsBlank]
      obtain ⟨more, hblanks⟩ := (hmembers.mono Dialect.integral_within_standard).head_members
      obtain ⟨vs, hvs, hread⟩ := ih (endsBefore_cons (.inr rfl)) fuel _ _ _ rfl rfl hms hleft
      refine ⟨_, hvs, readValue_object ?_⟩
      rw [readMembers_eq (next?_first hblanks hquote (by decide)) hblanks hquote, hread]
  | element hbefore _ hbehind ih =>
    intro fuel depth hd hfuel
    have hle := hbefore.length_le
    obtain ⟨v, hv, hread⟩ := ih (hbehind.endsBefore hrest) fuel depth hd (by omega)
    refine ⟨v, _, hv, ?_, hbehind⟩
    rw [readValue_skipBlank hbefore.skipBlank_eq, hread]
  | @lastElement cs rest d helement ih =>
    rintro fuel depth ds after hds rfl hinter hfuel
    cases hds
    have hle := helement.length_le
    obtain ⟨v, behind, hv, hread, hblanks⟩ :=
      ih hrest.element fuel depth (hinter d List.mem_cons_self) hfuel
    obtain ⟨fuel, rfl⟩ := exists_add_one hle hfuel
    exact ⟨[v], .item hv .noItem, itemsFrom_eq hread (readItems_close hblanks)⟩
  | @elements cs more rest d ds helement hmore ih ihmore =>
    rintro fuel depth ds after hds rfl hinter hfuel
    cases hds
    have hle := helement.length_le
    obtain ⟨v, behind, hv, hread, hblanks⟩ :=
      ih (endsBefore_cons (.inl rfl)) fuel depth (hinter d List.mem_cons_self) hfuel
    obtain ⟨fuel, rfl⟩ := exists_add_one hle hfuel
    obtain ⟨c, inner, hinner, hc, hbracket⟩ :=
      (hmore.mono Dialect.integral_within_standard).head_elements
    obtain ⟨vs, hvs, hitems⟩ := ihmore hrest fuel depth _ _ rfl rfl
      (fun e he => hinter e (List.mem_cons_of_mem d he)) (by rw [List.length_cons] at hle; omega)
    refine ⟨v :: vs, .item hv hvs, itemsFrom_eq hread ?_⟩
    rw [readItems_eq (next?_later hblanks hinner hc hbracket (by decide)) hinner, hitems]
  | @member cs quoted behind inner rest k d hbefore hchars hcolon _ ih =>
    rintro fuel depth m hm hinter hfuel
    cases hm
    have hbeforele := hbefore.length_le
    have hcharsle := hchars.length_le
    have hcolonle := hcolon.length_le
    simp only [List.length_cons] at hbeforele hcharsle hcolonle
    obtain ⟨v, behind, hv, hread, hblanks⟩ := ih hrest fuel depth hinter (by omega)
    exact ⟨v, behind, hv, readMember_eq hbefore hchars hcolon hread, hblanks⟩
  | @lastMember cs rest m hmember ih =>
    rintro fuel depth ms after hms rfl hinter hfuel
    cases hms
    have hle := hmember.length_le
    obtain ⟨v, behind, hv, hread, hblanks⟩ :=
      ih hrest.element fuel depth m rfl (hinter m List.mem_cons_self) hfuel
    obtain ⟨fuel, rfl⟩ := exists_add_one hle hfuel
    exact ⟨[(m.1, v)], .member hv .noMember, membersFrom_eq hread (readMembers_close hblanks)⟩
  | @members cs more rest m ms hmember hmore ih ihmore =>
    rintro fuel depth ms after hms rfl hinter hfuel
    cases hms
    have hle := hmember.length_le
    have hquote : ¬ IsBlank '"' := by simp [IsBlank]
    obtain ⟨v, behind, hv, hread, hblanks⟩ :=
      ih (endsBefore_cons (.inl rfl)) fuel depth m rfl (hinter m List.mem_cons_self) hfuel
    obtain ⟨fuel, rfl⟩ := exists_add_one hle hfuel
    obtain ⟨inner, hinner⟩ := (hmore.mono Dialect.integral_within_standard).head_members
    obtain ⟨vs, hvs, hreadmore⟩ := ihmore hrest fuel depth _ _ rfl rfl
      (fun e he => hinter e (List.mem_cons_of_mem m he)) (by rw [List.length_cons] at hle; omega)
    refine ⟨(m.1, v) :: vs, .member hv hvs, membersFrom_eq hread ?_⟩
    rw [readMembers_eq (next?_later hblanks hinner hquote (by decide) (by decide)) hinner hquote,
      hreadmore]

/-- The reader gives what stands for the document of a text, if its numbers are written as integers
and readers agree on it. -/
theorem exists_parse {text : String} {d : Document} (h : Denotes .integral text d)
    (hd : Interoperable 127 d) : ∃ v, StandsFor v d ∧ parse text.toList = .ok v := by
  obtain ⟨v, behind, hv, hread, hblanks⟩ := Reads.found h nofun (fuelFor text.toList) 127 hd
    (Nat.le_add_right _ 2)
  refine ⟨v, hv, ?_⟩
  unfold parse
  rw [hread]
  show (if skipBlank behind = [] then Except.ok v else Except.error Fault.malformed) = _
  rw [hblanks.skipBlank_eq]
  exact if_pos rfl

/-- A value is read back from its text. -/
theorem parse_toText {v : Json} {d : Document} (h : StandsFor v d) (hd : Interoperable 127 d) :
    parse v.toText.toList = .ok v := by
  obtain ⟨v', hv', hparse⟩ := exists_parse (h.denotes.mono Dialect.compact_within_integral) hd
  rw [hparse, h.unique hv']

end Json

end Tabular
