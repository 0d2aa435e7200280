import LiveTemplate.Json.Printer
import LiveTemplate.Proofs.Json.Form

/-!
# Compact text as a form

Data that is written without spaces is one of the forms that hold it, unless there are floats in it.
-/

namespace LiveTemplate.Json

theorem joinChars_eq (separator : List Char) (pieces : List (List Char)) :
    joinChars separator pieces = separator.intercalate pieces := by
  induction pieces with
  | nil => rfl
  | cons piece rest ih =>
      cases rest with
      | nil => exact List.intercalate_singleton.symm
      | cons next rest =>
          rw [joinChars, ih, List.intercalate_cons_cons]
          exact nofun

/-! ## Strings -/

namespace Glyph

/-- An element stands for a character, whatever follows. -/
def Means (glyph : Glyph) (c : Char) : Prop :=
  ∀ glyphs cs, Spells glyphs cs → Spells (glyph :: glyphs) (c :: cs)

/-- Every character is written as one element that stands for it. -/
theorem exists_escapeChar (c : Char) :
    ∃ glyph : Glyph, glyph.chars = escapeChar c ∧ glyph.Means c := by
  have hshort (letter : Char) {other : Char} (known : (letter, other) ∈ shortEscapes)
      (h : (c == other) = true) :
      ∃ glyph : Glyph, glyph.chars = ['\\', letter] ∧ glyph.Means c := by
    obtain rfl := eq_of_beq h
    exact ⟨.short letter c known, rfl, fun _ _ hrest => .short hrest⟩
  unfold escapeChar
  split
  · next h => exact hshort '"' (by decide) h
  split
  · next h => exact hshort '\\' (by decide) h
  split
  · next h => exact hshort 'b' (by decide) h
  split
  · next h => exact hshort 't' (by decide) h
  split
  · next h => exact hshort 'n' (by decide) h
  split
  · next h => exact hshort 'f' (by decide) h
  split
  · next h => exact hshort 'r' (by decide) h
  split
  · next hcontrol =>
      let high : HexDigit := ⟨⟨c.toNat / 16, by omega⟩, false⟩
      let low : HexDigit := ⟨⟨c.toNat % 16, by omega⟩, false⟩
      refine ⟨.unit ⟨0, false⟩ ⟨0, false⟩ high low, rfl, fun _ _ hrest => .unit ?_ hrest⟩
      simp only [unitOf, high, low, Fin.val_zero]
      omega
  · next hquote hbackslash _ _ _ _ _ hvisible =>
      have bare : c ≠ '"' ∧ c ≠ '\\' ∧ 0x20 ≤ c.toNat :=
        ⟨by simpa using hquote, by simpa using hbackslash, Nat.not_lt.1 hvisible⟩
      exact ⟨.plain c bare, rfl, fun _ _ hrest => .plain hrest⟩

theorem exists_flatMap (cs : List Char) :
    ∃ glyphs : List Glyph, glyphs.flatMap chars = cs.flatMap escapeChar ∧ Spells glyphs cs := by
  induction cs with
  | nil => exact ⟨[], rfl, .nil⟩
  | cons c cs ih =>
      obtain ⟨glyph, hchars, hmeans⟩ := exists_escapeChar c
      obtain ⟨glyphs, hrest, hspells⟩ := ih
      refine ⟨glyph :: glyphs, ?_, hmeans glyphs cs hspells⟩
      rw [List.flatMap_cons, List.flatMap_cons, hchars, hrest]

/-- A string literal spells the string. -/
theorem exists_literal (s : String) :
    ∃ glyphs : List Glyph, literal glyphs = stringLiteral s ∧ Spells glyphs s.toList := by
  obtain ⟨glyphs, hchars, hspells⟩ := exists_flatMap s.toList
  exact ⟨glyphs, by rw [literal, stringLiteral, hchars], hspells⟩

end Glyph

/-! ## Numbers -/

/-- An integer is written as its decimal digits behind its sign. -/
theorem Figure.exists_toString (n : Int) :
    ∃ figure : Figure, figure.chars = (toString n).toList ∧ figure.IsInteger n := by
  cases n with
  | ofNat m =>
      refine ⟨⟨false, m, none, none⟩, ?_, rfl, rfl, rfl⟩
      rw [chars, if_neg nofun, magnitudeChars]
      exact (List.append_nil _).trans Nat.toList_repr.symm
  | negSucc m =>
      refine ⟨⟨true, m + 1, none, none⟩, ?_, rfl, rfl, Nat.succ_ne_zero m, rfl⟩
      have htext : (toString (Int.negSucc m)).toList = '-' :: Nat.toDigits 10 (m + 1) := by
        rw [show toString (Int.negSucc m) = "-" ++ (m + 1).repr from rfl, String.toList_append,
          Nat.toList_repr]
        rfl
      rw [chars, if_pos rfl, magnitudeChars, htext]
      exact congrArg _ (List.append_nil _)

/-! ## Values -/

theorem MemberName.exists_literal (key : String) :
    ∃ name : MemberName, name.chars = stringLiteral key ∧ Glyph.Spells name.glyphs key.toList := by
  obtain ⟨glyphs, hchars, hspells⟩ := Glyph.exists_literal key
  refine ⟨⟨.none, glyphs, .none⟩, ?_, hspells⟩
  rw [← hchars]
  simp [MemberName.chars, Blank.none]

namespace Form

mutual

/-- The compact text of data without floats is a form that holds it. -/
theorem exists_compactChars :
    (json : Json) → json.Integral →
      ∃ form : Form, form.chars = json.compactChars ∧ form.Holds json
  | .null, _ => ⟨.null, rfl, trivial⟩
  | .bool b, _ => ⟨.bool b, by cases b <;> rfl, rfl⟩
  | .number (.integer n _), _ => by
      obtain ⟨figure, hchars, hinteger⟩ := Figure.exists_toString n
      exact ⟨.number figure, hchars, hinteger⟩
  | .number (.float _ _), h => h.elim
  | .string s, _ => by
      obtain ⟨glyphs, hchars, hspells⟩ := Glyph.exists_literal s
      exact ⟨.string glyphs, hchars, hspells⟩
  | .array items, h => by
      obtain ⟨forms, hchars, hholds⟩ := exists_itemPieces items h
      refine ⟨.array .none forms, ?_, hholds⟩
      rw [chars, compactChars, joinChars_eq, hchars]
      rfl
  | .object members, h => by
      obtain ⟨forms, hchars, hholds⟩ := exists_memberPieces members h.2
      refine ⟨.object .none forms, ?_, h.1, hholds⟩
      rw [chars, compactChars, joinChars_eq, hchars]
      rfl

theorem exists_itemPieces :
    (items : List Json) → Integral.integralItems items → ∃ forms : List Form,
      chars.itemChars forms = compactChars.itemPieces items ∧ Holds.holdsItems forms items
  | [], _ => ⟨[], rfl, trivial⟩
  | item :: rest, h => by
      obtain ⟨form, hchars, hholds⟩ := exists_compactChars item h.1
      obtain ⟨forms, hcharsRest, hholdsRest⟩ := exists_itemPieces rest h.2
      refine ⟨form :: forms, ?_, hholds, hholdsRest⟩
      rw [chars.itemChars, compactChars.itemPieces, hchars, hcharsRest]

theorem exists_memberPieces :
    (members : List (String × Json)) → Integral.integralMembers members →
      ∃ forms : List (MemberName × Form),
        chars.memberChars forms = compactChars.memberPieces members ∧
          Holds.holdsMembers forms members
  | [], _ => ⟨[], rfl, trivial⟩
  | (key, value) :: rest, h => by
      obtain ⟨name, hname, hspells⟩ := MemberName.exists_literal key
      obtain ⟨form, hchars, hholds⟩ := exists_compactChars value h.1
      obtain ⟨forms, hcharsRest, hholdsRest⟩ := exists_memberPieces rest h.2
      refine ⟨(name, form) :: forms, ?_, hspells, hholds, hholdsRest⟩
      rw [chars.memberChars, compactChars.memberPieces, hname, hchars, hcharsRest]

end

end Form

end LiveTemplate.Json
