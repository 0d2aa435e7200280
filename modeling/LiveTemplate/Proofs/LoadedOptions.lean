import LiveTemplate.Options.FromJson
import LiveTemplate.Proofs.Json.Compact
import LiveTemplate.Proofs.Json.Values
import Mathlib.Data.List.Nodup

/-!
# Loaded and built options

Options are built from their data by a call for each setting that is not left to its default, or they
are loaded from a text with a member for each such setting.  The text has many forms: the members
come in any order, with any others among them, and each is written in one of the ways of
`Json.Form`.  What has been read so far depends on none of this, and completing it is what the calls
do.
-/

namespace LiveTemplate

open Json (Token Form MemberName Glyph Skips Gives Blank)

/-! ## Records -/

namespace RecordReader

variable {σ : Type}

/-- A member takes what was read so far from one state to another.  It sets a known field that was
not read before, or it has another name and is skipped. -/
inductive Takes (reader : RecordReader σ) : σ → List Token → σ → Prop
  | field {state state' : σ} {key : String} {value : List Token} (hknown : key ∈ reader.fields)
      (hfresh : reader.holds state key = false)
      (hread : ∀ rest, reader.readField key state (value ++ rest) = .ok (state', rest)) :
      Takes reader state (.string (some key) :: .colon :: value) state'
  | other {state : σ} {key : String} {value : List Token} (hunknown : key ∉ reader.fields)
      (hskips : Skips value) :
      Takes reader state (.string (some key) :: .colon :: value) state

/-- One member after the other. -/
inductive TakesAll (reader : RecordReader σ) : σ → List (List Token) → σ → Prop
  | nil {state : σ} : TakesAll reader state [] state
  | cons {state next state' : σ} {member : List Token} {members : List (List Token)}
      (hfirst : reader.Takes state member next) (hrest : TakesAll reader next members state') :
      TakesAll reader state (member :: members) state'

variable {reader : RecordReader σ} {state state' : σ}

theorem ignored_of_skips {value : List Token} (h : Skips value) (rest : List Token) :
    TokenReader.ignored (value ++ rest) = .ok ((), rest) := by
  have hfuel : 2 * value.length ≤ Json.fuelFor (value ++ rest) := by
    simp only [Json.fuelFor, List.length_append]
    omega
  rw [TokenReader.ignored, h _ rest hfuel]

/-- Behind a member there is a comma and another member, or a brace. -/
theorem Takes.members_eq {member : List Token} (h : reader.Takes state member state') (fuel : Nat)
    (rest : List Token) :
    reader.members (fuel + 1) state (member ++ .comma :: rest) = reader.members fuel state' rest ∧
      reader.members (fuel + 1) state (member ++ .closeBrace :: rest) = .ok (state', rest) := by
  cases h with
  | field hknown hfresh hread =>
      constructor <;>
        simp [members, hknown, hfresh, hread, bind, Except.bind, pure, Except.pure]
  | other hunknown hskips =>
      constructor <;>
        simp [members, hunknown, ignored_of_skips hskips, bind, Except.bind, pure, Except.pure]

/-- Induction on the members. -/
theorem TakesAll.members_eq {member : List Token} {members : List (List Token)}
    (h : reader.TakesAll state (member :: members) state') {fuel : Nat}
    (hfuel : members.length < fuel) (rest : List Token) :
    reader.members fuel state
      ([Token.comma].intercalate (member :: members) ++ .closeBrace :: rest) =
        .ok (state', rest) := by
  induction members generalizing member state fuel with
  | nil =>
      obtain ⟨fuel, rfl⟩ : ∃ n, fuel = n + 1 := ⟨fuel - 1, by omega⟩
      cases h with
      | cons hfirst hrest =>
          cases hrest
          rw [List.intercalate_singleton]
          exact (hfirst.members_eq fuel rest).2
  | cons second members ih =>
      obtain ⟨fuel, rfl⟩ : ∃ n, fuel = n + 1 := ⟨fuel - 1, by omega⟩
      cases h with
      | cons hfirst hrest =>
          rw [List.intercalate_cons_cons, List.append_assoc, List.append_assoc]
          refine (hfirst.members_eq fuel _).1.trans (ih hrest ?_)
          simpa using hfuel

/-- Each member has a comma in front, except for the first one. -/
theorem length_le_length_intercalate (members : List (List Token)) (member : List Token) :
    members.length ≤ ([Token.comma].intercalate (member :: members)).length := by
  induction members generalizing member with
  | nil => exact Nat.zero_le _
  | cons second members ih =>
      have hrest := ih second
      rw [List.intercalate_cons_cons]
      simp only [List.length_append, List.length_cons, List.length_nil]
      omega

/-- A text with these members is read as the record that they make up. -/
theorem TakesAll.readText_eq {α : Type} {members : List (List Token)} {text : String}
    {finish : Bool → σ → Except Mismatch α} {result : α} (h : reader.TakesAll state members state')
    (htokens : Json.tokens text = .openBrace :: [Token.comma].intercalate members ++ [.closeBrace])
    (hfinish : finish false state' = .ok result) :
    reader.readText state finish text = .ok result := by
  rw [readText, htokens]
  cases members with
  | nil =>
      cases h
      simp [hfinish, Except.mapError, bind, Except.bind, pure, Except.pure]
  | cons member members =>
      let behindBrace := [Token.comma].intercalate (member :: members) ++ [Token.closeBrace]
      have hfuel : members.length < behindBrace.length := by
        rw [List.length_append]
        exact Nat.lt_succ_of_le (length_le_length_intercalate members member)
      have hread : reader.members behindBrace.length state behindBrace = .ok (state', []) :=
        h.members_eq hfuel []
      cases h with
      | cons hfirst hrest =>
          obtain ⟨key, value, rfl⟩ : ∃ key value, member = .string (some key) :: value := by
            cases hfirst <;> exact ⟨_, _, rfl⟩
          obtain ⟨behind, hbehind⟩ :=
            Json.exists_intercalate_eq_cons (.string (some key)) value members
          simp only [behindBrace, hbehind, List.cons_append] at hread ⊢
          rw [hread]
          simp [hfinish, Except.mapError, bind, Except.bind]

end RecordReader

namespace Options

/-! ## Settings -/

/-- A setting beside the data. -/
inductive Setting
  /-- The selector of the subtree to compile, or null. -/
  | el (selector : Option String)
  | directivePrefix (text : String)
  | notifyPolicy (policy : NotifyPolicy)

namespace Setting

/-- The name of the member for a setting. -/
def name : Setting → String
  | el _ => "el"
  | directivePrefix _ => "directive_prefix"
  | notifyPolicy _ => "notify_policy"

/-- The value of the member for a setting. -/
def value : Setting → Json
  | el (some selector) => .string selector
  | el none => .null
  | directivePrefix text => .string text
  | notifyPolicy policy => .string policy.label

/-- The builder call for a setting; null is what is there without a call. -/
def call (options : Options) : Setting → Options
  | el (some selector) => options.withEl selector
  | el none => options
  | directivePrefix text => options.withDirectivePrefix text
  | notifyPolicy policy => options.withNotifyPolicy policy

/-- The draft in which a setting has been read. -/
def put (draft : Draft) : Setting → Draft
  | el selector => { draft with el := some selector }
  | directivePrefix text => { draft with directivePrefix := some text }
  | notifyPolicy policy => { draft with notifyPolicy := some policy }

theorem name_mem_fieldNames (setting : Setting) : setting.name ∈ fieldNames := by
  cases setting <;> simp [name, fieldNames]

theorem holds_put (draft : Draft) {setting other : Setting} (h : setting.name ≠ other.name) :
    (put draft setting).holds other.name = draft.holds other.name := by
  cases setting <;> cases other <;> first | rfl | exact absurd rfl h

/-- Reading a setting leaves settings of other names unread. -/
theorem fresh_put {draft : Draft} {setting : Setting} {settings : List Setting}
    (hnames : ((setting :: settings).map name).Nodup)
    (hfresh : ∀ other ∈ settings, draft.holds other.name = false) :
    ∀ other ∈ settings, (put draft setting).holds other.name = false := by
  intro other hother
  have hne : setting.name ≠ other.name := fun heq =>
    (List.nodup_cons.1 hnames).1 (heq ▸ List.mem_map_of_mem hother)
  exact (holds_put draft hne).trans (hfresh other hother)

/-- A draft that has its data is complete, and reading one more setting does what its call does. -/
theorem complete_put {draft : Draft} {options : Options} {setting : Setting}
    (h : draft.complete? = some options) (hfresh : draft.holds setting.name = false) :
    (put draft setting).complete? = some (call options setting) := by
  obtain ⟨data, hdata, rfl⟩ := Option.map_eq_some_iff.1 h
  rcases setting with (_ | selector) | text | policy
  · have hel : draft.el = none := by simpa [Draft.holds, name] using hfresh
    simp [put, call, Draft.complete?, hdata, hel, ofData]
  all_goals simp [put, call, Draft.complete?, hdata, withEl, withDirectivePrefix, withNotifyPolicy]

theorem call_comm (options : Options) {setting other : Setting} (h : setting.name ≠ other.name) :
    call (call options setting) other = call (call options other) setting := by
  rcases setting with (_ | _) | _ | _ <;> rcases other with (_ | _) | _ | _ <;>
    first | rfl | exact absurd rfl h

/-- The order of the calls does not matter. -/
theorem foldl_call_of_perm {calls settings : List Setting} (h : calls.Perm settings)
    (hnames : (settings.map name).Nodup) (options : Options) :
    calls.foldl call options = settings.foldl call options := by
  refine h.foldl_eq' (fun setting hsetting other hother options => ?_) options
  by_cases heq : setting.name = other.name
  · rw [List.inj_on_of_nodup_map hnames (h.mem_iff.1 hsetting) (h.mem_iff.1 hother) heq]
  · exact call_comm options heq

/-- Reading settings of different names does what their calls do. -/
theorem complete_foldl_put {settings : List Setting} (hnames : (settings.map name).Nodup)
    {draft : Draft} {options : Options} (h : draft.complete? = some options)
    (hfresh : ∀ setting ∈ settings, draft.holds setting.name = false) :
    (settings.foldl put draft).complete? = some (settings.foldl call options) := by
  induction settings generalizing draft options with
  | nil => exact h
  | cons setting settings ih =>
      obtain ⟨hsetting, hsettings⟩ := List.forall_mem_cons.1 hfresh
      exact ih (List.nodup_cons.1 hnames).2 (complete_put h hsetting) (fresh_put hnames hsettings)

end Setting

/-- The member with the name of a setting is read as the setting. -/
theorem readField_setting {setting : Setting} {form : Form} (h : form.Holds setting.value)
    (draft : Draft) (rest : List Token) :
    recordReader.readField setting.name draft (form.tokens ++ rest) =
      .ok (setting.put draft, rest) := by
  rcases setting with (_ | selector) | text | policy
  · rw [form.tokens_of_holds_null h]
    rfl
  · rw [form.tokens_of_holds_string h]
    rfl
  · rw [form.tokens_of_holds_string h]
    rfl
  · rw [form.tokens_of_holds_string h]
    cases policy <;> rfl

/-! ## Texts of options -/

/-- The members are the data, if any, and the settings in this order, with members of other names
anywhere among them. -/
inductive Supplies : List (MemberName × Form) → Option Json → List Setting → Prop
  | nil : Supplies [] none []
  | data {members : List (MemberName × Form)} {settings : List Setting} {name : MemberName}
      {form : Form} {json : Json} (hname : Glyph.Spells name.glyphs "data".toList)
      (hform : form.Holds json) (hrest : Supplies members none settings) :
      Supplies ((name, form) :: members) (some json) settings
  | setting {members : List (MemberName × Form)} {data : Option Json} {settings : List Setting}
      {name : MemberName} {form : Form} {setting : Setting}
      (hname : Glyph.Spells name.glyphs setting.name.toList) (hform : form.Holds setting.value)
      (hrest : Supplies members data settings) :
      Supplies ((name, form) :: members) data (setting :: settings)
  | other {members : List (MemberName × Form)} {data : Option Json} {settings : List Setting}
      {name : MemberName} {form : Form} {key : String}
      (hname : Glyph.Spells name.glyphs key.toList) (hkey : key ∉ fieldNames)
      (hrest : Supplies members data settings) :
      Supplies ((name, form) :: members) data settings

/-- The draft in which the data has been read, if there is any. -/
def Draft.withData (draft : Draft) : Option Json → Draft
  | some json => { draft with data := some json }
  | none => draft

/-- What is read does not depend on when the data comes. -/
theorem Draft.put_withData (draft : Draft) (setting : Setting) (data : Option Json) :
    setting.put (draft.withData data) = (setting.put draft).withData data := by
  cases setting <;> cases data <;> rfl

theorem Draft.holds_withData (draft : Draft) (setting : Setting) (data : Option Json) :
    (draft.withData data).holds setting.name = draft.holds setting.name := by
  cases setting <;> cases data <;> rfl

theorem Setting.data_put (draft : Draft) (setting : Setting) :
    (setting.put draft).data = draft.data := by
  cases setting <;> rfl

/-- The data is read if it nests less deeply than the text may. -/
theorem readField_data {form : Form} {json : Json} (h : form.Holds json)
    (hdepth : json.depth < nestingLimit) (draft : Draft) (rest : List Token) :
    recordReader.readField "data" draft (form.tokens ++ rest) =
      .ok (draft.withData (some json), rest) := by
  have hgives : Gives (nestingLimit - 1) form.tokens json := form.gives json _ h (by omega)
  have hread : TokenReader.value (nestingLimit - 1) (form.tokens ++ rest) = .ok (json, rest) := by
    rw [TokenReader.value, hgives _ rest (by simp only [Json.fuelFor, List.length_append]; omega)]
  rw [recordReader]
  simp only [if_pos, hread]
  rfl

/-- Members put what they supply into a draft that has none of it.  Induction on the members; what is
still to come stays unread by those in front. -/
theorem Supplies.takesAll {members : List (MemberName × Form)} {data : Option Json}
    {settings : List Setting} (h : Supplies members data settings)
    (hnames : (settings.map Setting.name).Nodup)
    (hdepth : ∀ json ∈ data, json.depth < nestingLimit) {draft : Draft}
    (hdata : data.isSome → draft.data = none)
    (hfresh : ∀ setting ∈ settings, draft.holds setting.name = false) :
    recordReader.TakesAll draft (Form.tokens.memberTokens members)
      (settings.foldl Setting.put (draft.withData data)) := by
  induction h generalizing draft with
  | nil => exact .nil
  | data hname hform hrest ih =>
      rw [Form.tokens.memberTokens, hname.token_eq]
      have hholds : draft.holds "data" = false := by
        rw [Draft.holds, if_pos rfl, hdata rfl]
        rfl
      refine .cons (.field (by decide) hholds (readField_data hform (hdepth _ rfl) draft)) ?_
      exact ih hnames nofun nofun fun setting hsetting =>
        (draft.holds_withData setting _).trans (hfresh setting hsetting)
  | @setting members data settings name form setting hname hform hrest ih =>
      rw [Form.tokens.memberTokens, hname.token_eq]
      obtain ⟨hholds, hothers⟩ := List.forall_mem_cons.1 hfresh
      refine .cons (.field setting.name_mem_fieldNames hholds (readField_setting hform draft)) ?_
      rw [List.foldl_cons, draft.put_withData]
      exact ih (List.nodup_cons.1 hnames).2 hdepth
        (fun hsome => (setting.data_put draft).trans (hdata hsome))
        (Setting.fresh_put hnames hothers)
  | other hname hkey hrest ih =>
      rw [Form.tokens.memberTokens, hname.token_eq]
      exact .cons (.other hkey (Form.skips _)) (ih hnames hdepth hdata hfresh)

/-- A text with the members of some options is read as these. -/
theorem Supplies.ofJsonText_eq {members : List (MemberName × Form)} {data : Json}
    {settings : List Setting} (h : Supplies members (some data) settings)
    (hnames : (settings.map Setting.name).Nodup) (hdepth : data.depth < nestingLimit)
    (before blank after : Blank) :
    ofJsonText (Form.padded before (.object blank members) after).text =
      .ok (settings.foldl Setting.call (ofData data)) := by
  have hdepths : ∀ json ∈ some data, json.depth < nestingLimit := by
    rintro json hjson
    rwa [← Option.some.inj hjson]
  have htakes : recordReader.TakesAll {} (Form.tokens.memberTokens members) _ :=
    h.takesAll hnames hdepths (fun _ => rfl) fun setting _ => by cases setting <;> rfl
  refine htakes.readText_eq (Form.tokens_text _) ?_
  have hstart : (Draft.withData {} (some data)).complete? = some (ofData data) := rfl
  rw [Setting.complete_foldl_put hnames hstart fun setting _ => by cases setting <;> rfl]

/-! ## Written options -/

/-- The member for a setting. -/
def Setting.entry (setting : Setting) : String × Json := (setting.name, setting.value)

theorem integralMembers_entry (settings : List Setting) :
    Json.Integral.integralMembers (settings.map Setting.entry) := by
  induction settings with
  | nil => trivial
  | cons setting settings ih =>
      refine ⟨?_, ih⟩
      rcases setting with (_ | _) | _ | _ <;> trivial

theorem supplies_of_holdsMembers {members : List (MemberName × Form)} {settings : List Setting}
    (h : Form.Holds.holdsMembers members (settings.map Setting.entry)) :
    Supplies members none settings := by
  induction settings generalizing members with
  | nil =>
      cases members with
      | nil => exact .nil
      | cons member members => exact h.elim
  | cons setting settings ih =>
      cases members with
      | nil => exact h.elim
      | cons member members => exact .setting h.1 h.2.1 (ih h.2.2)

/-- Any data without floats and any settings can be written, and they are read back. -/
theorem ofJsonText_compact {data : Json} {settings : List Setting} (hintegral : data.Integral)
    (hdepth : data.depth < nestingLimit) (hnames : (settings.map Setting.name).Nodup) :
    ofJsonText (Json.object (("data", data) :: settings.map Setting.entry)).compact =
      .ok (settings.foldl Setting.call (ofData data)) := by
  obtain ⟨members, hchars, hholds⟩ := Form.exists_memberPieces
    (("data", data) :: settings.map Setting.entry) ⟨hintegral, integralMembers_entry settings⟩
  cases members with
  | nil => exact hholds.elim
  | cons member members =>
      have hsupplies : Supplies (member :: members) (some data) settings :=
        .data hholds.1 hholds.2.1 (supplies_of_holdsMembers hholds.2.2)
      rw [← hsupplies.ofJsonText_eq hnames hdepth .none .none .none, Json.compact, Form.text]
      congr 2
      rw [Json.compactChars, Json.joinChars_eq, ← hchars]
      simp [Form.chars, Blank.none]

/-- All settings of some options. -/
def settings (options : Options) : List Setting :=
  [.el options.el, .directivePrefix options.directivePrefix, .notifyPolicy options.notifyPolicy]

theorem toJson_eq (options : Options) :
    options.toJson = .object (("data", options.data) :: options.settings.map Setting.entry) := by
  obtain ⟨data, _ | el, directivePrefix, notifyPolicy⟩ := options <;> rfl

/-- All the calls together make the options from their data. -/
theorem foldl_call_settings (options : Options) :
    options.settings.foldl Setting.call (ofData options.data) = options := by
  obtain ⟨data, _ | el, directivePrefix, notifyPolicy⟩ := options <;> rfl

/-- Options that are loaded from a text are those that are built from its data by the call for each
setting in it, in whatever order.  The text has the data, which may nest up to the limit, and any of
the settings once; its members come in any order, others among them are ignored, and each is written
in any form.  In particular, options without floats in their data are loaded from what they are
written as. -/
theorem ofJsonText_eq_built :
    (∀ {members : List (MemberName × Form)} {data : Json} {settings calls : List Setting},
      Supplies members (some data) settings → (settings.map Setting.name).Nodup →
      data.depth < nestingLimit → calls.Perm settings → ∀ before blank after : Blank,
        ofJsonText (Form.padded before (.object blank members) after).text =
          .ok (calls.foldl Setting.call (ofData data))) ∧
    ∀ {options : Options}, options.data.Integral → options.data.depth < nestingLimit →
      ofJsonText options.toJson.compact = .ok options := by
  refine ⟨fun hsupplies hnames hdepth hcalls before blank after => ?_, fun {options} hintegral hdepth => ?_⟩
  · rw [Setting.foldl_call_of_perm hcalls hnames]
    exact hsupplies.ofJsonText_eq hnames hdepth before blank after
  · rw [toJson_eq, ofJsonText_compact hintegral hdepth (by simp [settings, Setting.name]),
      foldl_call_settings]

/-- A member of another name, a policy under a name that is in part escaped, and the data. -/
def notedMembers : List (MemberName × Form) :=
  let half : Glyph := .unit ⟨13, false⟩ ⟨8, false⟩ ⟨0, false⟩ ⟨0, false⟩
  let underscore : Glyph := .unit ⟨0, false⟩ ⟨0, false⟩ ⟨5, false⟩ ⟨15, true⟩
  let thousands : Form := .number ⟨false, 1, some ⟨5, []⟩, some ⟨false, none, ⟨3, []⟩⟩⟩
  let least : Form := .number ⟨true, 9223372036854775808, none, none⟩
  [(⟨.none, Glyph.bare "note", .none⟩, .array .none [thousands, .string [half]]),
    (⟨.none, Glyph.bare "notify" ++ underscore :: Glyph.bare "policy", .none⟩,
      .string (Glyph.bare "isolate")),
    (⟨.space, Glyph.bare "data", .none⟩,
      .object .none [(⟨.none, Glyph.bare "low", .none⟩, least)])]

def notedText : String :=
  "\x7b\"note\":[1.5e3,\"\\ud800\"],\"notify\\u005Fpolicy\":\"isolate\"," ++
    " \"data\":\x7b\"low\":-9223372036854775808\x7d\x7d"

def lowData : Json := .object [("low", .number (.integer (-9223372036854775808) (by decide)))]

theorem ofJsonText_eq_built_noted :
    ofJsonText notedText = .ok ((ofData lowData).withNotifyPolicy .isolate) ∧
      ofJsonText ((ofData lowData).withEl "#app").toJson.compact =
        .ok ((ofData lowData).withEl "#app") := by
  have hpolicy : "notify_policy".toList = "notify".toList ++ '_' :: "policy".toList := by decide
  have hsupplies : Supplies notedMembers (some lowData) [.notifyPolicy .isolate] := by
    refine .other .bare (by decide) (.setting ?_ .bare (.data .bare ?_ .nil))
    · rw [Setting.name, hpolicy]
      exact .append .bare (.unit rfl .bare)
    · exact ⟨by decide, .bare, ⟨rfl, rfl, by decide, rfl⟩, trivial⟩
  have htext : (Form.padded .none (.object .none notedMembers) .none).text = notedText := rfl
  refine ⟨?_, ofJsonText_eq_built.2 ?_ ?_⟩
  · rw [← htext]
    exact ofJsonText_eq_built.1 hsupplies (by decide) (by decide) (.refl _) .none .none .none
  · exact ⟨by decide, trivial, trivial⟩
  · decide

end Options

end LiveTemplate
