import LiveTemplate.Json.Reader
import LiveTemplate.Proofs.Json.Tokens
import LiveTemplate.Proofs.Reactive.Definitions

/-!
# The values of written forms

A reader takes the tokens of a form from the front and leaves what follows them.  It finds the data
that the form holds, as long as that does not nest more deeply than allowed; a reader that only
skips the form asks for nothing at all.  Two steps for each token are enough.
-/

namespace LiveTemplate.Json

/-! ## Numbers -/

theorem naturalOf_toDigits (n : Nat) :
    Numeral.naturalOf ((Nat.toDigits 10 n).map Token.digitValue) = n := by
  have hvalue := Nat.ofDigitChars_ten_toDigits (n := n)
  rw [Nat.ofDigitChars_eq_foldl] at hvalue
  rw [Numeral.naturalOf, List.foldl_map]
  simpa [Token.digitValue, Nat.mul_comm] using hvalue

/-- A number that is written as an integer is read as that integer. -/
theorem Figure.IsInteger.toNumber_eq {figure : Figure} {n : Int} (h : figure.IsInteger n)
    (hrange : -9223372036854775808 ≤ n ∧ n < 18446744073709551616) :
    figure.numeral.toNumber? = some (.integer n hrange) := by
  obtain ⟨hfraction, hexponent, hvalue⟩ := h
  have hinteger : figure.numeral.toInteger? = some (.integer n hrange) := by
    rw [Numeral.toInteger?, numeral, hfraction, hexponent]
    simp only [Option.map_none, Option.isNone_none, Bool.and_self, if_true, naturalOf_toDigits]
    cases hnegative : figure.negative with
    | true =>
        rw [hnegative, if_pos rfl] at hvalue
        rw [if_pos rfl, if_neg hvalue.1, ← hvalue.2, Number.ofInt?, dif_pos hrange]
    | false =>
        rw [hnegative, if_neg nofun] at hvalue
        rw [if_neg nofun, ← hvalue, Number.ofInt?, dif_pos hrange]
  rw [Numeral.toNumber?, hinteger]

/-! ## Punctuation between values -/

namespace Form

/-- No form starts with a closing bracket. -/
theorem exists_tokens_eq_cons :
    (form : Form) → ∃ t ts, form.tokens = t :: ts ∧ t ≠ .closeBracket
  | null => ⟨_, _, rfl, nofun⟩
  | bool _ => ⟨_, _, rfl, nofun⟩
  | number _ => ⟨_, _, rfl, nofun⟩
  | string _ => ⟨_, _, rfl, nofun⟩
  | array _ _ => ⟨_, _, rfl, nofun⟩
  | object _ _ => ⟨_, _, rfl, nofun⟩
  | padded _ form _ => exists_tokens_eq_cons form

end Form

/-- The first of some texts with commas between them stands at the front. -/
theorem exists_intercalate_eq_cons (t : Token) (ts : List Token) (others : List (List Token)) :
    ∃ later, [Token.comma].intercalate ((t :: ts) :: others) = t :: later := by
  cases others with
  | nil => exact ⟨ts, List.intercalate_singleton⟩
  | cons second others => exact ⟨_, List.intercalate_cons_cons⟩

/-- A loop takes parts with commas between them and a mark at the end, if it takes one part, goes on
behind a comma and ends behind the mark.  Induction on the parts behind the first one. -/
theorem loop_intercalate {α β : Type} (loop : Nat → List Token → Option β)
    (reads : List Token → α → Prop) (result : List α → List Token → β) {mark : Token}
    (hmark : ∀ fuel ts value rest, reads ts value → 2 * ts.length ≤ fuel →
      loop (fuel + 1) (ts ++ mark :: rest) = some (result [value] rest))
    (hcomma : ∀ fuel ts value rest values later, reads ts value → 2 * ts.length ≤ fuel →
      loop fuel rest = some (result values later) →
      loop (fuel + 1) (ts ++ .comma :: rest) = some (result (value :: values) later))
    {first : List Token} {others : List (List Token)} {value : α} {values : List α}
    (h : List.Forall₂ reads (first :: others) (value :: values)) {fuel : Nat}
    (hfuel : 2 * ([Token.comma].intercalate (first :: others)).length + 1 ≤ fuel)
    (rest : List Token) :
    loop fuel ([Token.comma].intercalate (first :: others) ++ mark :: rest) =
      some (result (value :: values) rest) := by
  obtain ⟨hfirst, hothers⟩ := List.forall₂_cons.1 h
  obtain ⟨fuel, rfl⟩ : ∃ n, fuel = n + 1 := ⟨fuel - 1, by omega⟩
  clear h
  induction hothers generalizing first value fuel with
  | nil =>
      rw [List.intercalate_singleton] at hfuel ⊢
      exact hmark fuel first value rest hfirst (by omega)
  | cons hsecond hothers ih =>
      rw [List.intercalate_cons_cons] at hfuel ⊢
      simp only [List.length_append, List.length_singleton] at hfuel
      obtain ⟨fuel, rfl⟩ : ∃ n, fuel = n + 1 := ⟨fuel - 1, by omega⟩
      rw [List.append_assoc, List.append_assoc]
      exact hcomma _ first value _ _ rest hfirst (by omega) (ih hsecond fuel (by omega))

/-! ## Skipping -/

/-- A reader that skips takes exactly the given tokens. -/
def Skips (ts : List Token) : Prop :=
  ∀ fuel rest, 2 * ts.length ≤ fuel → skipValue? fuel (ts ++ rest) = some rest

/-- A member is a name, a colon and a value that is skipped. -/
def SkipsMember (ts : List Token) : Prop :=
  ∃ name value, ts = .string name :: .colon :: value ∧ Skips value

theorem forall₂_unit {reads : List Token → Prop} {parts : List (List Token)}
    (h : ∀ ts ∈ parts, reads ts) :
    List.Forall₂ (fun ts (_ : Unit) => reads ts) parts (parts.map fun _ => ()) :=
  List.forall₂_map_right_iff.2 (List.forall₂_same.2 h)

/-- Behind the items of an array. -/
theorem skipItems_intercalate {first : List Token} {others : List (List Token)}
    (h : ∀ ts ∈ first :: others, Skips ts) {fuel : Nat}
    (hfuel : 2 * ([Token.comma].intercalate (first :: others)).length + 1 ≤ fuel)
    (rest : List Token) :
    skipItems? fuel ([Token.comma].intercalate (first :: others) ++ .closeBracket :: rest) =
      some rest := by
  refine loop_intercalate skipItems? (fun ts (_ : Unit) => Skips ts) (fun _ rest => rest) ?_ ?_
    (forall₂_unit h) hfuel rest
  · intro fuel ts _ rest h hfuel
    rw [skipItems?, h fuel _ hfuel]
  · intro fuel ts _ rest _ later h hfuel hrest
    rw [skipItems?, h fuel _ hfuel]
    exact hrest

/-- Behind the members of an object. -/
theorem skipMembers_intercalate {first : List Token} {others : List (List Token)}
    (h : ∀ ts ∈ first :: others, SkipsMember ts) {fuel : Nat}
    (hfuel : 2 * ([Token.comma].intercalate (first :: others)).length + 1 ≤ fuel)
    (rest : List Token) :
    skipMembers? fuel ([Token.comma].intercalate (first :: others) ++ .closeBrace :: rest) =
      some rest := by
  refine loop_intercalate skipMembers? (fun ts (_ : Unit) => SkipsMember ts) (fun _ rest => rest)
    ?_ ?_ (forall₂_unit h) hfuel rest
  · rintro fuel _ _ rest ⟨name, value, rfl, hvalue⟩ hfuel
    simp only [List.length_cons] at hfuel
    rw [List.cons_append, List.cons_append, skipMembers?, hvalue fuel _ (by omega)]
  · rintro fuel _ _ rest _ later ⟨name, value, rfl, hvalue⟩ hfuel hrest
    simp only [List.length_cons] at hfuel
    rw [List.cons_append, List.cons_append, skipMembers?, hvalue fuel _ (by omega)]
    exact hrest

theorem skipValue_openBracket {fuel : Nat} {t : Token} (ht : t ≠ .closeBracket)
    (rest : List Token) :
    skipValue? (fuel + 1) (.openBracket :: t :: rest) = skipItems? fuel (t :: rest) := by
  rw [skipValue?]
  rintro later heq
  exact ht (List.cons.inj heq).1

theorem Skips.of_single {t : Token} (h : ∀ fuel rest, skipValue? (fuel + 1) (t :: rest) = some rest) :
    Skips [t] := by
  intro fuel rest hfuel
  obtain ⟨fuel, rfl⟩ : ∃ n, fuel = n + 1 := ⟨fuel - 1, by simp at hfuel; omega⟩
  exact h fuel rest

theorem Skips.array {items : List (List Token)}
    (hitems : ∀ ts ∈ items, Skips ts ∧ ∃ t later, ts = t :: later ∧ t ≠ .closeBracket) :
    Skips (.openBracket :: [Token.comma].intercalate items ++ [.closeBracket]) := by
  intro fuel rest hfuel
  simp only [List.length_append, List.length_cons, List.length_nil] at hfuel
  obtain ⟨fuel, rfl⟩ : ∃ n, fuel = n + 1 := ⟨fuel - 1, by omega⟩
  cases items with
  | nil => rfl
  | cons first others =>
      have hskip : skipItems? fuel _ = some rest :=
        skipItems_intercalate (fun ts hts => (hitems ts hts).1) (by omega) rest
      obtain ⟨-, t, later, rfl, ht⟩ := hitems first List.mem_cons_self
      obtain ⟨behind, hbehind⟩ := exists_intercalate_eq_cons t later others
      rw [hbehind] at hskip ⊢
      rw [List.append_assoc, List.cons_append, List.cons_append, skipValue_openBracket ht]
      exact hskip

theorem Skips.object {members : List (List Token)} (hmembers : ∀ ts ∈ members, SkipsMember ts) :
    Skips (.openBrace :: [Token.comma].intercalate members ++ [.closeBrace]) := by
  intro fuel rest hfuel
  simp only [List.length_append, List.length_cons, List.length_nil] at hfuel
  obtain ⟨fuel, rfl⟩ : ∃ n, fuel = n + 1 := ⟨fuel - 1, by omega⟩
  cases members with
  | nil => rfl
  | cons first others =>
      have hskip : skipMembers? fuel _ = some rest :=
        skipMembers_intercalate hmembers (by omega) rest
      obtain ⟨name, value, rfl, -⟩ := hmembers first List.mem_cons_self
      obtain ⟨behind, hbehind⟩ :=
        exists_intercalate_eq_cons (.string name) (.colon :: value) others
      rw [hbehind] at hskip ⊢
      rw [List.append_assoc]
      exact hskip

namespace Form

/-- Whatever a form is, it can be skipped. -/
theorem skips (form : Form) : Skips form.tokens := by
  refine tokens.induct
    (fun items => ∀ ts ∈ tokens.itemTokens items,
      Skips ts ∧ ∃ t later, ts = t :: later ∧ t ≠ .closeBracket)
    (fun form => Skips form.tokens)
    (fun members => ∀ ts ∈ tokens.memberTokens members, SkipsMember ts)
    ?null ?bool ?number ?string ?array ?object ?padded ?noItems ?items ?noMembers ?members form
  case null => exact .of_single fun _ _ => rfl
  case bool => exact fun b => .of_single fun _ _ => rfl
  case number => exact fun figure => .of_single fun _ _ => rfl
  case string => exact fun glyphs => .of_single fun _ _ => rfl
  case array => exact fun blank items ih => .array ih
  case object => exact fun blank members ih => .object ih
  case padded => exact fun before form after ih => ih
  case noItems => exact fun ts hts => absurd hts List.not_mem_nil
  case items => exact fun item rest hitem hrest =>
      List.forall_mem_cons.2 ⟨⟨hitem, item.exists_tokens_eq_cons⟩, hrest⟩
  case noMembers => exact fun ts hts => absurd hts List.not_mem_nil
  case members => exact fun name value rest hvalue hrest =>
      List.forall_mem_cons.2 ⟨⟨_, _, rfl, hvalue⟩, hrest⟩

end Form

/-! ## Reading -/

/-- A reader takes exactly the given tokens and finds the value. -/
def Gives (depth : Nat) (ts : List Token) (json : Json) : Prop :=
  ∀ fuel rest, 2 * ts.length ≤ fuel → value? fuel depth (ts ++ rest) = some (json, rest)

/-- A member is a name, a colon and a value that is found. -/
def GivesMember (depth : Nat) (ts : List Token) (entry : String × Json) : Prop :=
  ∃ value, ts = .string (some entry.1) :: .colon :: value ∧ Gives depth value entry.2

/-- The items of an array. -/
theorem items_intercalate {depth : Nat} {first : List Token} {others : List (List Token)}
    {value : Json} {values : List Json}
    (h : List.Forall₂ (Gives depth) (first :: others) (value :: values)) {fuel : Nat}
    (hfuel : 2 * ([Token.comma].intercalate (first :: others)).length + 1 ≤ fuel)
    (rest : List Token) :
    items? fuel depth ([Token.comma].intercalate (first :: others) ++ .closeBracket :: rest) =
      some (value :: values, rest) := by
  refine loop_intercalate (fun fuel => items? fuel depth) (Gives depth) Prod.mk ?_ ?_ h hfuel rest
  · intro fuel ts value rest h hfuel
    rw [items?, h fuel _ hfuel]
  · intro fuel ts value rest values later h hfuel hrest
    rw [items?, h fuel _ hfuel]
    simp only [hrest, Option.map_some]

/-- The members of an object. -/
theorem members_intercalate {depth : Nat} {first : List Token} {others : List (List Token)}
    {entry : String × Json} {entries : List (String × Json)}
    (h : List.Forall₂ (GivesMember depth) (first :: others) (entry :: entries)) {fuel : Nat}
    (hfuel : 2 * ([Token.comma].intercalate (first :: others)).length + 1 ≤ fuel)
    (rest : List Token) :
    members? fuel depth ([Token.comma].intercalate (first :: others) ++ .closeBrace :: rest) =
      some (entry :: entries, rest) := by
  refine loop_intercalate (fun fuel => members? fuel depth) (GivesMember depth) Prod.mk ?_ ?_ h
    hfuel rest
  · rintro fuel _ entry rest ⟨value, rfl, hvalue⟩ hfuel
    simp only [List.length_cons] at hfuel
    rw [List.cons_append, List.cons_append, members?, hvalue fuel _ (by omega)]
  · rintro fuel _ entry rest entries later ⟨value, rfl, hvalue⟩ hfuel hrest
    simp only [List.length_cons] at hfuel
    rw [List.cons_append, List.cons_append, members?, hvalue fuel _ (by omega)]
    simp only [hrest, Option.map_some]

theorem value_openBracket {fuel depth : Nat} {t : Token} (ht : t ≠ .closeBracket)
    (rest : List Token) :
    value? (fuel + 1) (depth + 1) (.openBracket :: t :: rest) =
      (items? fuel depth (t :: rest)).map fun found => (.array found.1, found.2) := by
  rw [value?]
  rintro later heq
  exact ht (List.cons.inj heq).1

namespace Gives

theorem of_single {depth : Nat} {t : Token} {json : Json}
    (h : ∀ fuel rest, value? (fuel + 1) depth (t :: rest) = some (json, rest)) :
    Gives depth [t] json := by
  intro fuel rest hfuel
  obtain ⟨fuel, rfl⟩ : ∃ n, fuel = n + 1 := ⟨fuel - 1, by simp at hfuel; omega⟩
  exact h fuel rest

theorem array {depth : Nat} {items : List (List Token)} {values : List Json}
    (hitems : List.Forall₂ (fun ts value =>
      Gives depth ts value ∧ ∃ t later, ts = t :: later ∧ t ≠ .closeBracket) items values) :
    Gives (depth + 1) (.openBracket :: [Token.comma].intercalate items ++ [.closeBracket])
      (.array values) := by
  intro fuel rest hfuel
  simp only [List.length_append, List.length_cons, List.length_nil] at hfuel
  obtain ⟨fuel, rfl⟩ : ∃ n, fuel = n + 1 := ⟨fuel - 1, by omega⟩
  cases hitems with
  | nil => rfl
  | @cons first value others values hfirst hothers =>
      obtain ⟨hgives, t, later, rfl, ht⟩ := hfirst
      have hread : items? fuel depth _ = some (value :: values, rest) :=
        items_intercalate (.cons hgives (hothers.imp fun _ _ h => h.1)) (by omega) rest
      obtain ⟨behind, hbehind⟩ := exists_intercalate_eq_cons t later others
      rw [hbehind] at hread ⊢
      rw [List.append_assoc, List.cons_append, List.cons_append, value_openBracket ht]
      exact congrArg _ hread

theorem object {depth : Nat} {members : List (List Token)} {entries : List (String × Json)}
    (hmembers : List.Forall₂ (GivesMember depth) members entries)
    (hnames : (entries.map Prod.fst).Nodup) :
    Gives (depth + 1) (.openBrace :: [Token.comma].intercalate members ++ [.closeBrace])
      (.object entries) := by
  intro fuel rest hfuel
  simp only [List.length_append, List.length_cons, List.length_nil] at hfuel
  obtain ⟨fuel, rfl⟩ : ∃ n, fuel = n + 1 := ⟨fuel - 1, by omega⟩
  cases hmembers with
  | nil => rfl
  | @cons first entry others entries hfirst hothers =>
      have hread : members? fuel depth _ = some (entry :: entries, rest) :=
        members_intercalate (.cons hfirst hothers) (by omega) rest
      obtain ⟨value, rfl, -⟩ := hfirst
      obtain ⟨behind, hbehind⟩ :=
        exists_intercalate_eq_cons (.string (some entry.1)) (.colon :: value) others
      rw [hbehind] at hread ⊢
      rw [List.append_assoc]
      have hvalue : value? (fuel + 1) (depth + 1)
          (.openBrace :: (.string (some entry.1) :: behind ++ ([.closeBrace] ++ rest))) =
            (members? fuel depth
              (.string (some entry.1) :: behind ++ .closeBrace :: rest)).map fun found =>
                (.object (Table.ofEntries found.1), found.2) := rfl
      rw [List.cons_append, hvalue, hread, Option.map_some, Table.ofEntries_of_nodup hnames]

end Gives

namespace Form

/-- The data that a form holds is found, if it does not nest too deeply. -/
theorem gives (form : Form) :
    ∀ json depth, form.Holds json → json.depth ≤ depth → Gives depth form.tokens json := by
  refine tokens.induct
    (fun items => ∀ values depth, Holds.holdsItems items values →
      Json.depth.depthOfItems values ≤ depth →
      List.Forall₂ (fun ts value =>
        Gives depth ts value ∧ ∃ t later, ts = t :: later ∧ t ≠ .closeBracket)
        (tokens.itemTokens items) values)
    (fun form => ∀ json depth, form.Holds json → json.depth ≤ depth → Gives depth form.tokens json)
    (fun members => ∀ entries depth, Holds.holdsMembers members entries →
      Json.depth.depthOfMembers entries ≤ depth →
      List.Forall₂ (GivesMember depth) (tokens.memberTokens members) entries)
    ?null ?bool ?number ?string ?array ?object ?padded ?noItems ?items ?noMembers ?members form
  case null =>
    intro json depth h _
    cases json with
    | null => exact .of_single fun _ _ => rfl
    | _ => cases h
  case bool =>
    intro b json depth h _
    cases json with
    | bool b' =>
        obtain rfl : b = b' := h
        exact .of_single fun _ _ => rfl
    | _ => cases h
  case number =>
    intro figure json depth h _
    cases json with
    | number n =>
        cases n with
        | integer n hrange =>
            refine .of_single fun fuel rest => ?_
            rw [value?, Figure.IsInteger.toNumber_eq h hrange]
            rfl
        | float x hfinite => cases h
    | _ => cases h
  case string =>
    intro glyphs json depth h _
    cases json with
    | string s =>
        rw [tokens, Glyph.Spells.token_eq h]
        exact .of_single fun _ _ => rfl
    | _ => cases h
  case array =>
    intro blank items ih json depth h hdepth
    cases json with
    | array values =>
        obtain ⟨depth, rfl⟩ : ∃ n, depth = n + 1 :=
          ⟨depth - 1, by simp only [Json.depth] at hdepth; omega⟩
        exact .array (ih values depth h (Nat.le_of_succ_le_succ hdepth))
    | _ => cases h
  case object =>
    intro blank members ih json depth h hdepth
    cases json with
    | object entries =>
        obtain ⟨depth, rfl⟩ : ∃ n, depth = n + 1 :=
          ⟨depth - 1, by simp only [Json.depth] at hdepth; omega⟩
        exact .object (ih entries depth h.2 (Nat.le_of_succ_le_succ hdepth)) h.1
    | _ => cases h
  case padded => exact fun before form after ih json depth h hdepth => ih json depth h hdepth
  case noItems =>
    intro values depth h _
    cases values with
    | nil => exact .nil
    | cons value values => cases h
  case items =>
    intro item rest hitem hrest values depth h hdepth
    cases values with
    | nil => cases h
    | cons value values =>
        obtain ⟨hfirst, hothers⟩ := Nat.max_le.1 hdepth
        exact .cons ⟨hitem value depth h.1 hfirst, item.exists_tokens_eq_cons⟩
          (hrest values depth h.2 hothers)
  case noMembers =>
    intro entries depth h _
    cases entries with
    | nil => exact .nil
    | cons entry entries => cases h
  case members =>
    intro name value rest hvalue hrest entries depth h hdepth
    cases entries with
    | nil => cases h
    | cons entry entries =>
        obtain ⟨hfirst, hothers⟩ := Nat.max_le.1 hdepth
        exact .cons ⟨_, by rw [h.1.token_eq], hvalue entry.2 depth h.2.1 hfirst⟩
          (hrest entries depth h.2.2 hothers)

end Form

end LiveTemplate.Json
