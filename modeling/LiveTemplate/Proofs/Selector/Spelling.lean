import LiveTemplate.Selector.Basic
import Mathlib.Data.List.TakeWhile

/-!
# How compounds are written

A compound opens with a tag, with `*` or with neither, and goes on with parts, each a sigil and an
identifier: `#` for the id, at most once, and `.` for a class.  No identifier character is a sigil,
so each name is read up to the next sigil, and a compound can be written in one way only so that it
has its text.  Reading it forgets where the id stood among the classes, and whether a compound
without a tag opened with `*`.
-/

namespace LiveTemplate

/-- A name of identifier characters, not empty. -/
def IsIdentifier (name : String) : Prop :=
  name ≠ "" ∧ ∀ c ∈ name.toList, Compound.isIdentifierChar c = true

instance (name : String) : Decidable (IsIdentifier name) :=
  decidable_of_iff (name ≠ "" ∧ name.toList.all Compound.isIdentifierChar = true)
    (by rw [List.all_eq_true, IsIdentifier])

/-! ## Spellings -/

/-- How a compound opens: without a tag, with `*`, or with a tag. -/
inductive Opening
  | bare
  | any
  | tag (name : String)
deriving DecidableEq, Repr

namespace Opening

/-- The characters of the opening. -/
def chars : Opening → List Char
  | bare => []
  | any => ['*']
  | tag name => name.toList

/-- The tag that the opening asks for. -/
def tag? : Opening → Option String
  | tag name => some name
  | _ => none

/-- The opening with the given name, if it is one. -/
def ofName (name : List Char) : Opening := if name = [] then bare else tag (String.ofList name)

theorem chars_ofName (name : List Char) : (ofName name).chars = name := by
  unfold ofName
  split
  · next hname => exact hname.symm
  · exact String.toList_ofList

end Opening

/-- A part of a compound behind its opening. -/
inductive Part
  /-- The id, behind `#`. -/
  | id (name : String)
  /-- A class, behind a full stop. -/
  | label (name : String)
deriving DecidableEq, Repr

namespace Part

/-- The character in front of the name. -/
def sigil : Part → Char
  | id _ => '#'
  | label _ => '.'

/-- The name behind the sigil. -/
def name : Part → String
  | id name => name
  | label name => name

/-- The characters of the part. -/
def chars (part : Part) : List Char := part.sigil :: part.name.toList

/-- The id, if the part is one. -/
def id? : Part → Option String
  | id name => some name
  | label _ => none

/-- The class, if the part is one. -/
def label? : Part → Option String
  | id _ => none
  | label name => some name

theorem not_blank_sigil (part : Part) : Text.isAsciiBlank part.sigil = false := by
  cases part <;> simp [sigil, Text.isAsciiBlank]

theorem sigil_ne_star (part : Part) : part.sigil ≠ '*' := by
  cases part <;> simp [sigil]

/-- A part is its sigil and its name. -/
theorem eq_of_sigil_of_name {part other : Part} (hsigil : part.sigil = other.sigil)
    (hname : part.name = other.name) : part = other := by
  cases part <;> cases other <;> simp_all [sigil, name]

end Part

/-- A way to write a compound. -/
structure Spelling where
  opening : Opening
  parts : List Part
deriving DecidableEq, Repr

namespace Spelling

/-- The characters of the compound. -/
def chars (spelling : Spelling) : List Char :=
  spelling.opening.chars ++ spelling.parts.flatMap Part.chars

/-- The ids, in order. -/
def ids (spelling : Spelling) : List String := spelling.parts.filterMap Part.id?

/-- The classes, in order. -/
def labels (spelling : Spelling) : List String := spelling.parts.filterMap Part.label?

/-- The compound that is written. -/
def compound (spelling : Spelling) : Compound where
  tag := spelling.opening.tag?
  id := spelling.ids.head?
  classes := spelling.labels

/-- The names are identifiers, there is at most one id, and something is written. -/
structure WellFormed (spelling : Spelling) : Prop where
  opening : ∀ name ∈ spelling.opening.tag?, IsIdentifier name
  parts : ∀ part ∈ spelling.parts, IsIdentifier part.name
  ids : spelling.ids.length ≤ 1
  chars : spelling.chars ≠ []

instance (spelling : Spelling) : Decidable spelling.WellFormed :=
  decidable_of_iff ((∀ name ∈ spelling.opening.tag?, IsIdentifier name) ∧
      (∀ part ∈ spelling.parts, IsIdentifier part.name) ∧
      spelling.ids.length ≤ 1 ∧ spelling.chars ≠ [])
    ⟨fun ⟨h, h', h'', h'''⟩ => ⟨h, h', h'', h'''⟩, fun h => ⟨h.opening, h.parts, h.ids, h.chars⟩⟩

/-- The compounds ask for the same tag or for none, for the same id and for the same classes. -/
structure Agree (spelling other : Spelling) : Prop where
  tag : spelling.opening.tag? = other.opening.tag?
  ids : spelling.ids = other.ids
  labels : spelling.labels = other.labels

end Spelling

/-! ## Reading identifiers -/

namespace Compound

theorem isIdentifierChar_sigil (part : Part) : isIdentifierChar part.sigil = false := by
  have hsigils : isIdentifierChar '#' = false ∧ isIdentifierChar '.' = false := by decide +kernel
  cases part with
  | id name => exact hsigils.1
  | label name => exact hsigils.2

theorem isIdentifierChar_star : isIdentifierChar '*' = false := by decide +kernel

/-- Blanks are no identifier characters. -/
theorem isAsciiBlank_of_isIdentifierChar {c : Char} (h : isIdentifierChar c = true) :
    Text.isAsciiBlank c = false := by
  have hblanks : [' ', '\t', '\n', '\r', '\x0c'].all (!isIdentifierChar ·) = true := by
    decide +kernel
  cases hblank : Text.isAsciiBlank c with
  | false => rfl
  | true =>
      have hmem : c ∈ [' ', '\t', '\n', '\r', '\x0c'] := by
        simpa only [Text.isAsciiBlank, Bool.or_eq_true, beq_iff_eq, or_assoc, List.mem_cons,
          List.not_mem_nil, or_false] using hblank
      simpa [h] using List.all_eq_true.1 hblanks c hmem

/-- Behind a name there is the end or a character that is none of an identifier. -/
def Stops (rest : List Char) : Prop := ∀ c ∈ rest.head?, isIdentifierChar c = false

theorem stops_parts (parts : List Part) : Stops (parts.flatMap Part.chars) := by
  cases parts with
  | nil => simp [Stops]
  | cons part rest => simpa [Stops, Part.chars] using isIdentifierChar_sigil part

/-- A name is read to its end. -/
theorem span_identifier {name rest : List Char} (hname : ∀ c ∈ name, isIdentifierChar c = true)
    (hrest : Stops rest) :
    (name ++ rest).takeWhile isIdentifierChar = name ∧
      (name ++ rest).dropWhile isIdentifierChar = rest := by
  rw [List.takeWhile_append_of_pos hname, List.dropWhile_append_of_pos hname]
  cases rest with
  | nil => simp
  | cons c rest =>
      have hc : isIdentifierChar c = false := hrest c rfl
      simp [hc]

theorem isIdentifier_ofList {name : List Char} (hne : name ≠ [])
    (hname : ∀ c ∈ name, isIdentifierChar c = true) : IsIdentifier (String.ofList name) :=
  ⟨by simpa using hne, by simpa using hname⟩

theorem isIdentifier_ofName {name : List Char} (hname : ∀ c ∈ name, isIdentifierChar c = true) :
    ∀ tag ∈ (Opening.ofName name).tag?, IsIdentifier tag := by
  intro tag htag
  unfold Opening.ofName at htag
  split at htag
  · cases htag
  · next hne =>
      obtain rfl := Option.some.inj htag
      exact isIdentifier_ofList hne hname

theorem isIdentifierChar_of_mem_takeWhile {cs : List Char} :
    ∀ c ∈ cs.takeWhile isIdentifierChar, isIdentifierChar c = true :=
  fun _ hc => List.mem_takeWhile_imp hc

/-! ## Reading parts -/

/-- A compound that asks for what parts add to it. -/
def extend (compound : Compound) (parts : List Part) : Compound :=
  { compound with
    id := compound.id.or (parts.filterMap Part.id?).head?
    classes := compound.classes ++ parts.filterMap Part.label? }

theorem extend_nil (compound : Compound) : compound.extend [] = compound := by
  simp [extend]

theorem extend_id {compound : Compound} (hid : compound.id = none) (name : String)
    (parts : List Part) :
    compound.extend (.id name :: parts) = ({ compound with id := some name }).extend parts := by
  simp [extend, hid, Part.id?, Part.label?, List.filterMap_cons]

theorem extend_label (compound : Compound) (name : String) (parts : List Part) :
    compound.extend (.label name :: parts) =
      ({ compound with classes := compound.classes ++ [name] }).extend parts := by
  simp [extend, Part.id?, Part.label?, List.filterMap_cons]

/-- The parts can be added: their names are identifiers, and there is one id at most then. -/
structure Fits (compound : Compound) (parts : List Part) : Prop where
  names : ∀ part ∈ parts, IsIdentifier part.name
  ids : (compound.id.toList ++ parts.filterMap Part.id?).length ≤ 1

theorem fits_nil (compound : Compound) : compound.Fits [] where
  names := nofun
  ids := by cases compound.id <;> simp

theorem fits_id {compound : Compound} (hid : compound.id = none) (name : String)
    (parts : List Part) :
    compound.Fits (.id name :: parts) ↔
      IsIdentifier name ∧ ({ compound with id := some name }).Fits parts := by
  constructor
  · rintro ⟨hnames, hids⟩
    obtain ⟨hname, hnames⟩ := List.forall_mem_cons.1 hnames
    exact ⟨hname, hnames, by simpa [hid, Part.id?, List.filterMap_cons] using hids⟩
  · rintro ⟨hname, hnames, hids⟩
    refine ⟨List.forall_mem_cons.2 ⟨hname, hnames⟩, ?_⟩
    simpa [hid, Part.id?, List.filterMap_cons] using hids

theorem fits_label (compound : Compound) (name : String) (parts : List Part) :
    compound.Fits (.label name :: parts) ↔
      IsIdentifier name ∧
        ({ compound with classes := compound.classes ++ [name] }).Fits parts := by
  constructor
  · rintro ⟨hnames, hids⟩
    obtain ⟨hname, hnames⟩ := List.forall_mem_cons.1 hnames
    exact ⟨hname, hnames, by simpa [Part.id?, List.filterMap_cons] using hids⟩
  · rintro ⟨hname, hnames, hids⟩
    refine ⟨List.forall_mem_cons.2 ⟨hname, hnames⟩, ?_⟩
    simpa [Part.id?, List.filterMap_cons] using hids

/-- A compound with an id takes no other one. -/
theorem id_eq_none_of_fits {compound : Compound} {name : String} {parts : List Part}
    (h : compound.Fits (.id name :: parts)) : compound.id = none := by
  have hids := h.ids
  cases hid : compound.id with
  | none => rfl
  | some other => simp [hid, Part.id?] at hids

/-- One part is read up to the next one. -/
theorem readParts_cons (compound : Compound) {part : Part} (hpart : IsIdentifier part.name)
    (parts : List Part) :
    readParts compound ((part :: parts).flatMap Part.chars) =
      match part with
      | .id name =>
        if compound.id.isSome then .error .duplicateId
        else readParts { compound with id := some name } (parts.flatMap Part.chars)
      | .label name =>
        readParts { compound with classes := compound.classes ++ [name] }
          (parts.flatMap Part.chars) := by
  obtain ⟨hne, hname⟩ := hpart
  obtain ⟨htake, hdrop⟩ := span_identifier hname (stops_parts parts)
  have hsome : (String.ofList part.name.toList).isEmpty = false := by
    simpa using hne
  rw [List.flatMap_cons, Part.chars, List.cons_append, readParts]
  simp only [htake, hdrop, hsome]
  cases part <;> simp [Part.sigil, Part.name]

/-- Parts that fit are read and added.  Induction on the parts. -/
theorem readParts_of_fits {compound : Compound} {parts : List Part}
    (h : compound.Fits parts) :
    readParts compound (parts.flatMap Part.chars) = .ok (compound.extend parts) := by
  induction parts generalizing compound with
  | nil => rw [List.flatMap_nil, readParts, extend_nil]
  | cons part parts ih =>
      rw [readParts_cons compound (h.names part List.mem_cons_self)]
      cases part with
      | id name =>
          have hid := id_eq_none_of_fits h
          dsimp only
          rw [hid, if_neg (by simp), extend_id hid]
          exact ih ((fits_id hid name parts).1 h).2
      | label name =>
          rw [extend_label]
          exact ih ((fits_label compound name parts).1 h).2

/-- A name and what is behind it, behind a sigil. -/
theorem cons_eq_flatMap_chars (part : Part) {rest : List Char} {parts : List Part}
    (hname : part.name = String.ofList (rest.takeWhile isIdentifierChar))
    (hparts : rest.dropWhile isIdentifierChar = parts.flatMap Part.chars) :
    part.sigil :: rest = (part :: parts).flatMap Part.chars := by
  rw [List.flatMap_cons, Part.chars, hname, String.toList_ofList, ← hparts, List.cons_append,
    List.takeWhile_append_dropWhile]

/-- Whatever is read as parts is made of parts that fit.  Induction along the reader. -/
theorem exists_of_readParts {compound result : Compound} {cs : List Char}
    (h : readParts compound cs = .ok result) :
    ∃ parts, cs = parts.flatMap Part.chars ∧ compound.Fits parts ∧
      result = compound.extend parts := by
  have hname {rest : List Char}
      (hsome : ¬(String.ofList (rest.takeWhile isIdentifierChar)).isEmpty = true) :
      IsIdentifier (String.ofList (rest.takeWhile isIdentifierChar)) :=
    isIdentifier_ofList (by simpa using hsome) isIdentifierChar_of_mem_takeWhile
  fun_induction readParts compound cs with
  | case1 compound =>
      obtain rfl := Except.ok.inj h
      exact ⟨[], rfl, fits_nil compound, (extend_nil compound).symm⟩
  | case2 => cases h
  | case3 => cases h
  | case4 compound rest name hsome hfree ih =>
      have hid : compound.id = none := by simpa using hfree
      obtain ⟨parts, hrest, hfits, rfl⟩ := ih h
      refine ⟨.id name :: parts, cons_eq_flatMap_chars (.id name) rfl hrest, ?_,
        (extend_id hid name parts).symm⟩
      exact (fits_id hid name parts).2 ⟨hname hsome, hfits⟩
  | case5 compound rest name hsome hsigil ih =>
      obtain ⟨parts, hrest, hfits, rfl⟩ := ih h
      refine ⟨.label name :: parts, cons_eq_flatMap_chars (.label name) rfl hrest, ?_,
        (extend_label compound name parts).symm⟩
      exact (fits_label compound name parts).2 ⟨hname hsome, hfits⟩
  | case6 => cases h

end Compound

/-! ## Reading compounds -/

namespace Spelling

open Compound

variable {spelling other : Spelling}

/-- The compound that is written asks for the tag and for what the parts add. -/
theorem compound_eq_extend (spelling : Spelling) :
    spelling.compound = ({ tag := spelling.opening.tag? } : Compound).extend spelling.parts := by
  simp [compound, extend, ids, labels]

theorem fits_iff (spelling : Spelling) :
    ({ tag := spelling.opening.tag? } : Compound).Fits spelling.parts ↔
      (∀ part ∈ spelling.parts, IsIdentifier part.name) ∧ spelling.ids.length ≤ 1 :=
  ⟨fun h => ⟨h.names, h.ids⟩, fun h => ⟨h.1, h.2⟩⟩

/-- A compound begins with `*` only if it opens so: sigils and identifiers do not begin so. -/
theorem head?_chars (h : spelling.WellFormed) :
    spelling.chars.head? = some '*' ↔ spelling.opening = .any := by
  obtain ⟨opening, parts⟩ := spelling
  cases opening with
  | any => exact iff_of_true rfl rfl
  | bare =>
      refine iff_of_false ?_ nofun
      cases parts with
      | nil => exact nofun
      | cons part parts =>
          intro hhead
          exact part.sigil_ne_star (Option.some.inj hhead)
  | tag name =>
      refine iff_of_false ?_ nofun
      obtain ⟨hne, hname⟩ := h.opening name rfl
      cases hchars : name.toList with
      | nil => exact absurd (String.toList_eq_nil_iff.1 hchars) hne
      | cons c cs =>
          intro hhead
          rw [chars, Opening.chars, hchars] at hhead
          obtain rfl : c = '*' := Option.some.inj hhead
          rw [hchars] at hname
          exact Bool.false_ne_true (isIdentifierChar_star.symm.trans (hname _ List.mem_cons_self))

theorem isIdentifierChar_opening (h : spelling.WellFormed) (hopening : spelling.opening ≠ .any) :
    ∀ c ∈ spelling.opening.chars, isIdentifierChar c = true := by
  intro c hc
  cases hform : spelling.opening with
  | bare =>
      rw [hform] at hc
      cases hc
  | any => exact absurd hform hopening
  | tag name =>
      rw [hform] at hc
      exact (h.opening name (by rw [hform]; rfl)).2 c hc

/-- Without `*`, the opening is what can be read as a name, and the parts are the rest. -/
theorem span_chars (h : spelling.WellFormed) (hopening : spelling.opening ≠ .any) :
    spelling.chars.takeWhile isIdentifierChar = spelling.opening.chars ∧
      spelling.chars.dropWhile isIdentifierChar = spelling.parts.flatMap Part.chars :=
  span_identifier (isIdentifierChar_opening h hopening) (stops_parts spelling.parts)

/-- Parts are told apart by their characters.  Induction on the parts. -/
theorem parts_inj {parts later : List Part} (hparts : ∀ part ∈ parts, IsIdentifier part.name)
    (hlater : ∀ part ∈ later, IsIdentifier part.name)
    (hsame : parts.flatMap Part.chars = later.flatMap Part.chars) : parts = later := by
  induction parts generalizing later with
  | nil =>
      cases later with
      | nil => rfl
      | cons other later => cases hsame
  | cons part parts ih =>
      cases later with
      | nil => cases hsame
      | cons other later =>
          obtain ⟨hpart, hparts⟩ := List.forall_mem_cons.1 hparts
          obtain ⟨hother, hlater⟩ := List.forall_mem_cons.1 hlater
          rw [List.flatMap_cons, List.flatMap_cons, Part.chars, Part.chars, List.cons_append,
            List.cons_append] at hsame
          obtain ⟨hsigil, hrest⟩ := List.cons.inj hsame
          -- Both names end where the identifier characters end.
          obtain ⟨htake, hdrop⟩ := span_identifier hpart.2 (stops_parts parts)
          obtain ⟨htake', hdrop'⟩ := span_identifier hother.2 (stops_parts later)
          have hname : part.name = other.name := by
            rw [← String.toList_inj, ← htake, hrest, htake']
          rw [Part.eq_of_sigil_of_name hsigil hname,
            ih hparts hlater (hdrop.symm.trans (hrest ▸ hdrop'))]

/-- Nothing of a compound is a blank. -/
theorem not_blank (h : spelling.WellFormed) :
    ∀ c ∈ spelling.chars, Text.isAsciiBlank c = false := by
  intro c hc
  rcases List.mem_append.1 hc with hc | hc
  · by_cases hopening : spelling.opening = .any
    · rw [hopening] at hc
      rw [List.mem_singleton.1 hc]
      decide
    · exact isAsciiBlank_of_isIdentifierChar (isIdentifierChar_opening h hopening c hc)
  · obtain ⟨part, hpart, hc⟩ := List.mem_flatMap.1 hc
    rcases List.mem_cons.1 hc with rfl | hc
    · exact part.not_blank_sigil
    · exact isAsciiBlank_of_isIdentifierChar ((h.parts part hpart).2 c hc)

/-- Compounds agree if and only if they are the same: where there is one id at most, it is the
first one. -/
theorem compound_inj (h : spelling.WellFormed) (h' : other.WellFormed) :
    spelling.compound = other.compound ↔ spelling.Agree other := by
  have hfirst {ids : List String} (hids : ids.length ≤ 1) : ids = ids.head?.toList := by
    match ids, hids with
    | [], _ => rfl
    | [_], _ => rfl
  constructor
  · intro hsame
    obtain ⟨htag, hid, hlabels⟩ := Compound.mk.inj hsame
    exact ⟨htag, (hfirst h.ids).trans (hid ▸ (hfirst h'.ids).symm), hlabels⟩
  · rintro ⟨htag, hids, hlabels⟩
    rw [compound, compound, htag, hids, hlabels]

/-- Openings are told apart by their characters. -/
theorem opening_inj {opening other : Opening} (h : ∀ name ∈ opening.tag?, IsIdentifier name)
    (h' : ∀ name ∈ other.tag?, IsIdentifier name) (hsame : opening.chars = other.chars) :
    opening = other := by
  have hbare {name : String} (hname : IsIdentifier name) : name.toList ≠ [] := fun hnil =>
    hname.1 (String.toList_eq_nil_iff.1 hnil)
  have hstar {name : String} (hname : IsIdentifier name) : name.toList ≠ ['*'] := by
    intro hchars
    have hmem := hname.2 '*' (by rw [hchars]; exact List.mem_cons_self)
    exact Bool.false_ne_true (isIdentifierChar_star.symm.trans hmem)
  cases opening with
  | bare =>
      cases other with
      | bare => rfl
      | any => cases hsame
      | tag name => exact absurd hsame.symm (hbare (h' name rfl))
  | any =>
      cases other with
      | bare => cases hsame
      | any => rfl
      | tag name => exact absurd hsame.symm (hstar (h' name rfl))
  | tag name =>
      cases other with
      | bare => exact absurd hsame (hbare (h name rfl))
      | any => exact absurd hsame (hstar (h name rfl))
      | tag name' => exact congrArg Opening.tag (String.toList_inj.1 hsame)

/-- A compound can be written in one way only so that it has these characters. -/
theorem chars_inj (h : spelling.WellFormed) (h' : other.WellFormed)
    (hsame : spelling.chars = other.chars) : spelling = other := by
  have hboth : spelling.opening.chars = other.opening.chars ∧
      spelling.parts.flatMap Part.chars = other.parts.flatMap Part.chars := by
    have hany : spelling.opening = .any ↔ other.opening = .any := by
      rw [← head?_chars h, ← head?_chars h', hsame]
    by_cases hopening : spelling.opening = .any
    · rw [hopening, hany.1 hopening]
      rw [chars, chars, hopening, hany.1 hopening] at hsame
      exact ⟨rfl, List.append_cancel_left hsame⟩
    · obtain ⟨htake, hdrop⟩ := span_chars h hopening
      obtain ⟨htake', hdrop'⟩ := span_chars h' fun h => hopening (hany.2 h)
      rw [hsame] at htake hdrop
      exact ⟨htake.symm.trans htake', hdrop.symm.trans hdrop'⟩
  obtain ⟨opening, parts⟩ := spelling
  obtain ⟨opening', parts'⟩ := other
  exact congrArg₂ Spelling.mk (opening_inj h.opening h'.opening hboth.1)
    (parts_inj h.parts h'.parts hboth.2)

end Spelling

namespace Compound

/-- A word that does not begin with `*` begins with a tag, if with a name at all. -/
theorem read_of_head? {word : List Char} (hhead : word.head? ≠ some '*') :
    read word = readParts { tag := (Opening.ofName (word.takeWhile isIdentifierChar)).tag? }
      (word.dropWhile isIdentifierChar) := by
  unfold read Opening.ofName
  split
  · exact absurd rfl hhead
  · by_cases hname : word.takeWhile isIdentifierChar = [] <;> simp [hname, Opening.tag?]

/-- A compound that is well written is read. -/
theorem read_chars {spelling : Spelling} (h : spelling.WellFormed) :
    read spelling.chars = .ok spelling.compound := by
  have hparts := readParts_of_fits (spelling.fits_iff.2 ⟨h.parts, h.ids⟩)
  rw [Spelling.compound_eq_extend, ← hparts]
  by_cases hopening : spelling.opening = .any
  · rw [Spelling.chars, hopening]
    rfl
  · obtain ⟨htake, hdrop⟩ := Spelling.span_chars h hopening
    have hname : Opening.ofName spelling.opening.chars = spelling.opening :=
      Spelling.opening_inj
        (isIdentifier_ofName (Spelling.isIdentifierChar_opening h hopening)) h.opening
        (Opening.chars_ofName _)
    rw [read_of_head? fun hhead => hopening ((Spelling.head?_chars h).1 hhead), htake, hdrop, hname]

/-- Whatever is read as a compound is written so. -/
theorem exists_spelling_of_read {compound : Compound} {word : List Char} (hne : word ≠ [])
    (h : read word = .ok compound) :
    ∃ spelling : Spelling, spelling.WellFormed ∧ spelling.chars = word ∧
      spelling.compound = compound := by
  -- Any opening will do that has the tag and the characters in front of the parts.
  have hspelling (opening : Opening) {rest : List Char} (hword : word = opening.chars ++ rest)
      (htag : ∀ name ∈ opening.tag?, IsIdentifier name)
      (h : readParts { tag := opening.tag? } rest = .ok compound) :
      ∃ spelling : Spelling, spelling.WellFormed ∧ spelling.chars = word ∧
        spelling.compound = compound := by
    obtain ⟨parts, rfl, hfits, rfl⟩ := exists_of_readParts h
    obtain ⟨hnames, hids⟩ := (Spelling.fits_iff ⟨opening, parts⟩).1 hfits
    exact ⟨⟨opening, parts⟩, ⟨htag, hnames, hids, fun hnil => hne (hword.trans hnil)⟩, hword.symm,
      Spelling.compound_eq_extend ⟨opening, parts⟩⟩
  by_cases hhead : word.head? = some '*'
  · obtain ⟨rest, rfl⟩ := List.head?_eq_some_iff.1 hhead
    exact hspelling .any rfl nofun h
  · rw [read_of_head? hhead] at h
    refine hspelling _ ?_ (isIdentifier_ofName isIdentifierChar_of_mem_takeWhile) h
    rw [Opening.chars_ofName, List.takeWhile_append_dropWhile]

/-! ## Printing compounds -/

/-- The tag, the id and the classes are identifiers. -/
structure Named (compound : Compound) : Prop where
  tag : ∀ name ∈ compound.tag, IsIdentifier name
  id : ∀ name ∈ compound.id, IsIdentifier name
  classes : ∀ name ∈ compound.classes, IsIdentifier name

instance (compound : Compound) : Decidable compound.Named :=
  decidable_of_iff ((∀ name ∈ compound.tag, IsIdentifier name) ∧
      (∀ name ∈ compound.id, IsIdentifier name) ∧ ∀ name ∈ compound.classes, IsIdentifier name)
    ⟨fun ⟨h, h', h''⟩ => ⟨h, h', h''⟩, fun h => ⟨h.tag, h.id, h.classes⟩⟩

/-- The compound written with its id in front of its classes, and opened in the given way if it asks
for no tag. -/
def spelling (compound : Compound) (absent : Opening) : Spelling where
  opening := compound.tag.elim absent Opening.tag
  parts := compound.id.toList.map Part.id ++ compound.classes.map Part.label

/-- The text of a compound in which nothing stands for an absent tag. -/
def shortText (compound : Compound) : String := String.ofList (compound.spelling .bare).chars

variable (compound : Compound) {absent : Opening}

theorem text_eq : compound.text = String.ofList (compound.spelling .any).chars := by
  rw [← String.toList_inj]
  obtain ⟨tag, id, classes⟩ := compound
  cases tag <;> cases id <;>
    simp [text, spelling, Spelling.chars, Opening.chars, Part.chars, Part.sigil, Part.name,
      List.flatMap_map, String.toList_join]

theorem ids_spelling : (compound.spelling absent).ids = compound.id.toList := by
  simp [Spelling.ids, spelling, List.filterMap_append, List.filterMap_map, Function.comp_def,
    Part.id?]

theorem labels_spelling : (compound.spelling absent).labels = compound.classes := by
  simp [Spelling.labels, spelling, List.filterMap_append, List.filterMap_map, Function.comp_def,
    Part.label?]

/-- The compound can be read off what is written. -/
theorem compound_spelling (habsent : absent.tag? = none) :
    (compound.spelling absent).compound = compound := by
  obtain ⟨tag, id, classes⟩ := compound
  rw [Spelling.compound, ids_spelling, labels_spelling]
  cases tag with
  | none => simpa [spelling] using habsent
  | some name => simp [spelling, Opening.tag?]

/-- What is written is well formed if the names are identifiers, and if something is asked for or
stands for an absent tag. -/
theorem wellFormed_spelling {compound : Compound} (hnamed : compound.Named)
    (hsome : absent = .bare → compound ≠ {}) (habsent : absent.tag? = none) :
    (compound.spelling absent).WellFormed := by
  have hopening : ∀ name ∈ (compound.spelling absent).opening.tag?, IsIdentifier name := by
    intro name hname
    refine hnamed.tag name ?_
    rw [← compound_spelling compound habsent]
    exact hname
  refine ⟨hopening, fun part hpart => ?_, ?_, fun hnil => ?_⟩
  · rcases List.mem_append.1 hpart with hpart | hpart
    · obtain ⟨name, hname, rfl⟩ := List.mem_map.1 hpart
      exact hnamed.id name (Option.mem_toList.1 hname)
    · obtain ⟨name, hname, rfl⟩ := List.mem_map.1 hpart
      exact hnamed.classes name hname
  · rw [ids_spelling]
    cases compound.id <;> simp
  · -- Nothing is written only if nothing is asked for and an absent tag is left out.
    obtain ⟨hfront, hparts⟩ := List.append_eq_nil_iff.1 hnil
    have hbare : (compound.spelling absent).opening = .bare :=
      Spelling.opening_inj hopening nofun hfront
    have hnone : (compound.spelling absent).parts = [] :=
      List.eq_nil_iff_forall_not_mem.2 fun part hpart =>
        List.cons_ne_nil _ _ (List.flatMap_eq_nil_iff.1 hparts part hpart)
    have hnothing : absent = .bare := by
      unfold spelling at hbare
      cases htag : compound.tag with
      | none => simpa [htag] using hbare
      | some name => simp [htag] at hbare
    refine hsome hnothing ?_
    rw [← compound_spelling compound habsent, Spelling.compound, Spelling.ids, Spelling.labels,
      hbare, hnone]
    rfl

end Compound

end LiveTemplate
