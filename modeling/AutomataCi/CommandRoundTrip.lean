import AutomataCi.WorkflowCommands

/-!
# Rendered workflow commands are parsed back

A command is rendered as the toolkit does it: percent signs and line breaks are
escaped in the data, colons and commas in the values of properties as well.
The parser takes the line apart before it resolves the escapes, one kind after
the other; it finds the command which was rendered.
-/

namespace AutomataCi

open GuardedResult SubstringSearch TextOperations

inductive EscapeToken where
  | plain (character : Char)
  | escaped (second third : Char)
  deriving DecidableEq, Repr

namespace EscapeToken

def spell : EscapeToken → Text
  | plain character => [character]
  | escaped second third => ['%', second, third]

def resolve (second third replacement : Char) : EscapeToken → EscapeToken
  | plain character => plain character
  | escaped a b => if a = second ∧ b = third then plain replacement else escaped a b

def Clean : EscapeToken → Prop
  | plain character => character ≠ '%'
  | escaped second third => second ≠ '%' ∧ third ≠ '%'

theorem Clean.resolve {token : EscapeToken} (hclean : token.Clean)
    (second third : Char) {replacement : Char}
    (hreplacement : replacement ≠ '%') :
    (token.resolve second third replacement).Clean := by
  cases token with
  | plain => exact hclean
  | escaped =>
    simp only [EscapeToken.resolve]
    split_ifs
    · exact hreplacement
    · exact hclean

variable (character : Char)

def data : EscapeToken :=
  if character = '%' then escaped '2' '5'
  else if character = '\r' then escaped '0' 'D'
  else if character = '\n' then escaped '0' 'A'
  else plain character

def property : EscapeToken :=
  if character = ':' then escaped '3' 'A'
  else if character = ',' then escaped '2' 'C'
  else data character

theorem clean_data : (data character).Clean := by
  unfold data
  split_ifs with hpercent
  · exact ⟨by decide, by decide⟩
  · exact ⟨by decide, by decide⟩
  · exact ⟨by decide, by decide⟩
  · exact hpercent

theorem clean_property : (property character).Clean := by
  unfold property
  split_ifs
  · exact ⟨by decide, by decide⟩
  · exact ⟨by decide, by decide⟩
  · exact clean_data character

end EscapeToken

variable {second third replacement : Char} {text : Text} {token : Char → EscapeToken}
  {before rest : List RawProperty} {first : RawProperty} {command : RawCommand}

theorem unescape_cons_of_ne {first a : Char} (hne : a ≠ first) (rest : Text) :
    unescape first second third replacement (a :: rest) =
      a :: unescape first second third replacement rest := by
  match rest with
  | [] => rfl
  | [b] => rfl
  | b :: c :: rest => rw [unescape, if_neg fun hsame => hne hsame.1]

theorem unescape_spell {tokens : List EscapeToken} (hclean : ∀ token ∈ tokens, token.Clean) :
    unescape '%' second third replacement (tokens.flatMap EscapeToken.spell) =
      (tokens.map (EscapeToken.resolve second third replacement)).flatMap EscapeToken.spell := by
  induction tokens with
  | nil => rfl
  | cons token rest ih =>
    rw [List.forall_mem_cons] at hclean
    have hrest := ih hclean.2
    rw [List.flatMap_cons, List.map_cons, List.flatMap_cons, ← hrest]
    cases token with
    | plain => exact unescape_cons_of_ne hclean.1 _
    | escaped a b =>
      simp only [EscapeToken.spell, EscapeToken.resolve, List.cons_append, List.nil_append]
      rw [unescape]
      by_cases hsame : a = second ∧ b = third
      · rw [if_pos ⟨rfl, hsame⟩, if_pos hsame]
        rfl
      · rw [if_neg fun hall => hsame hall.2, if_neg hsame,
          unescape_cons_of_ne hclean.1.1, unescape_cons_of_ne hclean.1.2]
        rfl

def escapeV2Data (text : Text) : Text :=
  (text.map EscapeToken.data).flatMap EscapeToken.spell

def escapeV2Property (text : Text) : Text :=
  (text.map EscapeToken.property).flatMap EscapeToken.spell

section Cascade

open EscapeToken

theorem unescape_map (hclean : ∀ c, (token c).Clean) :
    unescape '%' second third replacement ((text.map token).flatMap spell) =
      (text.map fun c => (token c).resolve second third replacement).flatMap spell := by
  have hall : ∀ entry ∈ text.map token, entry.Clean := by
    intro entry hentry
    obtain ⟨c, -, hc⟩ := List.mem_map.mp hentry
    exact hc ▸ hclean c
  rw [unescape_spell hall, List.map_map]
  rfl

theorem flatMap_spell_eq_self (htoken : ∀ c, (token c).spell = [c]) :
    (text.map token).flatMap spell = text := by
  rw [List.flatMap_map]
  simp [htoken]

theorem unescapeV2Data_escapeV2Data (text : Text) : unescapeV2Data (escapeV2Data text) = text := by
  have hreturn := fun c => (clean_data c).resolve '0' 'D' (by decide : '\r' ≠ '%')
  have hnewline := fun c => (hreturn c).resolve '0' 'A' (by decide : '\n' ≠ '%')
  unfold unescapeV2Data escapeV2Data
  rw [unescape_map clean_data, unescape_map hreturn, unescape_map hnewline]
  refine flatMap_spell_eq_self fun c => ?_
  unfold data
  split_ifs with hpercent hcr hlf
  · rw [hpercent]
    rfl
  · rw [hcr]
    rfl
  · rw [hlf]
    rfl
  · rfl

theorem unescapeV2Property_escapeV2Property (text : Text) :
    unescapeV2Property (escapeV2Property text) = text := by
  have hreturn := fun c => (clean_property c).resolve '0' 'D' (by decide : '\r' ≠ '%')
  have hnewline := fun c => (hreturn c).resolve '0' 'A' (by decide : '\n' ≠ '%')
  have hcolon := fun c => (hnewline c).resolve '3' 'A' (by decide : ':' ≠ '%')
  have hcomma := fun c => (hcolon c).resolve '2' 'C' (by decide : ',' ≠ '%')
  unfold unescapeV2Property escapeV2Property
  rw [unescape_map clean_property, unescape_map hreturn,
    unescape_map hnewline, unescape_map hcolon, unescape_map hcomma]
  refine flatMap_spell_eq_self fun c => ?_
  unfold property data
  split_ifs with hc hm hpercent hcr hlf
  · rw [hc]
    rfl
  · rw [hm]
    rfl
  · rw [hpercent]
    rfl
  · rw [hcr]
    rfl
  · rw [hlf]
    rfl
  · rfl

end Cascade

def renderProperty (property : RawProperty) : Text :=
  property.name ++ '=' :: escapeV2Property property.value

def renderProperties : List RawProperty → Text
  | [] => []
  | properties => ' ' :: List.intercalate [','] (properties.map renderProperty)

def renderCommand (command : RawCommand) : Text :=
  ':' :: ':' :: (command.name ++ renderProperties command.properties ++
    ':' :: ':' :: escapeV2Data command.data)

structure RawProperty.Renderable (limits : WorkflowCommandLimits)
    (property : RawProperty) : Prop where
  name : property.name ≠ []
  nameCharacters : ∀ character ∈ property.name,
    character ≠ '=' ∧ character ≠ ',' ∧ character ≠ ':' ∧ isWhitespace character = false
  nameBytes : (utf8Bytes property.name).length ≤ limits.maximumNameBytes
  value : property.value ≠ []
  valueBytes : (utf8Bytes property.value).length ≤ limits.maximumDataBytes

structure RawCommand.Renderable (limits : WorkflowCommandLimits)
    (command : RawCommand) : Prop where
  name : registered command.name none = true
  nameBytes : (utf8Bytes command.name).length ≤ limits.maximumNameBytes
  properties : ∀ property ∈ command.properties, property.Renderable limits
  distinct : command.properties.Pairwise fun left right =>
    sameIgnoringCase left.name right.name = false
  lastValue : ∀ property ∈ command.properties.getLast?,
    ∀ character ∈ property.value.getLast?, isWhitespace character = false
  propertyCount : command.properties.length ≤ limits.maximumProperties
  dataBytes : (utf8Bytes command.data).length ≤ limits.maximumDataBytes

theorem registered_characters :
    ∀ registered ∈ registeredCommands, registered.toList ≠ [] ∧
        ∀ character ∈ registered.toList.map Char.toUpper, character ≠ ':' ∧ character ≠ ' ' := by
  intro registered hregistered
  have hall : registeredCommands.all (fun registered => !registered.toList.isEmpty &&
        (registered.toList.map Char.toUpper).all fun character =>
          decide (character ≠ ':' ∧ character ≠ ' ')) = true := by
    decide +kernel
  have hone := List.all_eq_true.mp hall registered hregistered
  rw [Bool.and_eq_true] at hone
  refine ⟨?_, forall_mem_of_all hone.2⟩
  intro hempty
  rw [hempty] at hone
  exact absurd hone.1 (by decide)

theorem name_of_registered {name : Text} (hname : registered name none = true) :
    name ≠ [] ∧ ':' ∉ name ∧ ' ' ∉ name := by
  simp only [registered, Option.any_none, Bool.or_false, List.any_eq_true,
    isCommand, sameIgnoringCase, decide_eq_true_eq] at hname
  obtain ⟨known, hknown, hsame⟩ := hname
  obtain ⟨hnonempty, hcharacters⟩ := registered_characters known hknown
  refine ⟨?_, fun hcolon => ?_, fun hspace => ?_⟩
  · rintro rfl
    rw [List.map_nil, eq_comm, List.map_eq_nil_iff] at hsame
    exact hnonempty hsame
  · have hmem : ':' ∈ known.toList.map Char.toUpper := hsame ▸ List.mem_map.mpr ⟨':', hcolon, rfl⟩
    exact (hcharacters ':' hmem).1 rfl
  · have hmem : ' ' ∈ known.toList.map Char.toUpper := hsame ▸ List.mem_map.mpr ⟨' ', hspace, rfl⟩
    exact (hcharacters ' ' hmem).2 rfl

theorem mem_escapeV2Property {character : Char} (hmem : character ∈ escapeV2Property text) :
    character ≠ ':' ∧ character ≠ ',' := by
  simp only [escapeV2Property, List.mem_flatMap, List.mem_map] at hmem
  obtain ⟨token, ⟨source, -, htoken⟩, hmem⟩ := hmem
  subst htoken
  unfold EscapeToken.property EscapeToken.data at hmem
  split_ifs at hmem with hcolon hcomma <;>
    simp only [EscapeToken.spell, List.mem_cons, List.not_mem_nil, or_false] at hmem
  iterate 5
    · rcases hmem with h | h | h <;> subst h <;> decide
  · subst hmem
    exact ⟨hcolon, hcomma⟩

theorem escapeV2Property_ne_nil (htext : text ≠ []) : escapeV2Property text ≠ [] := by
  cases text with
  | nil => exact absurd rfl htext
  | cons first =>
    unfold escapeV2Property
    rw [List.map_cons, List.flatMap_cons]
    cases EscapeToken.property first <;> simp [EscapeToken.spell]

theorem getLast_escapeV2Property
    (hlast : ∀ character ∈ text.getLast?, isWhitespace character = false) :
    ∀ character ∈ (escapeV2Property text).getLast?, isWhitespace character = false := by
  rcases List.eq_nil_or_concat' text with rfl | ⟨front, last, rfl⟩
  · simp [escapeV2Property]
  · rw [List.getLast?_concat] at hlast
    have hsource := hlast last rfl
    intro character hmem
    unfold escapeV2Property at hmem
    rw [List.map_append, List.flatMap_append] at hmem
    simp only [List.map_cons, List.map_nil, List.flatMap_cons,
      List.flatMap_nil, List.append_nil] at hmem
    unfold EscapeToken.property EscapeToken.data at hmem
    split_ifs at hmem <;> simp [EscapeToken.spell, List.getLast?_append] at hmem <;> subst hmem
    · decide
    · decide
    · decide
    · decide
    · decide
    · exact hsource

variable {limits : WorkflowCommandLimits}

theorem parseProperty_renderProperty {property : RawProperty}
    (hproperty : property.Renderable limits) {count : Nat}
    (hcount : count < limits.maximumProperties)
    (hdistinct : ∀ other ∈ before, sameIgnoringCase other.name property.name = false) :
    parseProperty limits (count, before) (renderProperty property) =
      .ok (count + 1, before ++ [property]) := by
  have hequals : '=' ∉ property.name := fun hmem => (hproperty.nameCharacters '=' hmem).1 rfl
  have hsplit :
      splitAtFirst '=' (renderProperty property) =
        some (property.name, escapeV2Property property.value) :=
    splitAtFirst_append hequals
  have hvalue := escapeV2Property_ne_nil hproperty.value
  have hput : ∀ {others : List RawProperty}, (∀ other ∈ others,
        sameIgnoringCase other.name property.name = false) →
      putProperty property.name property.value others = others ++ [property] := by
    intro others hothers
    induction others with
    | nil => rfl
    | cons other rest ih =>
      rw [List.forall_mem_cons] at hothers
      rw [putProperty, hothers.1, ih hothers.2]
      rfl
  have hroom :
      rejectIf (limits.maximumProperties < count + 1)
        (WorkflowCommandError.tooManyProperties limits.maximumProperties) =
        .ok () :=
    rejectIf_of_not _ (by omega)
  have hname : validateCommandName limits property.name = .ok () :=
    rejectIf_of_not _ (Nat.not_lt.mpr hproperty.nameBytes)
  have hdata : validateData limits property.value = .ok () :=
    rejectIf_of_not _ (Nat.not_lt.mpr hproperty.valueBytes)
  unfold parseProperty
  simp only [hsplit, hroom, ok_bind, hproperty.name, hvalue, or_self, if_false,
    unescapeV2Property_escapeV2Property, hname, hdata, hput hdistinct]
  rfl

theorem foldlM_renderProperty {properties : List RawProperty}
    (hproperties : ∀ property ∈ properties, property.Renderable limits)
    (hcount : before.length + properties.length ≤ limits.maximumProperties)
    (hdistinct : (before ++ properties).Pairwise fun left right =>
      sameIgnoringCase left.name right.name = false) :
    (properties.map renderProperty).foldlM (parseProperty limits) (before.length, before) =
      .ok (before.length + properties.length, before ++ properties) := by
  induction properties generalizing before with
  | nil => simp
  | cons property rest ih =>
    rw [List.forall_mem_cons] at hproperties
    simp only [List.length_cons] at hcount
    have hothers : ∀ other ∈ before, sameIgnoringCase other.name property.name = false :=
      fun other hother => (List.pairwise_append.mp hdistinct).2.2 other
        hother property List.mem_cons_self
    rw [List.map_cons, List.foldlM_cons,
      parseProperty_renderProperty hproperties.1 (by omega) hothers,
      ok_bind]
    have hrest :
        (rest.map renderProperty).foldlM (parseProperty limits)
            ((before ++ [property]).length, before ++ [property]) = _ :=
      ih hproperties.2 (by simp only [List.length_append, List.length_singleton]; omega)
        (by simpa using hdistinct)
    simp only [List.length_append, List.length_singleton,
      List.append_assoc, List.singleton_append] at hrest
    rw [hrest]
    simp only [List.length_cons]
    congr 2
    omega

theorem renderProperty_separators {property : RawProperty}
    (hproperty : property.Renderable limits) :
    ∀ character ∈ renderProperty property, character ≠ ':' ∧ character ≠ ',' := by
  intro character hmem
  rcases List.mem_append.mp hmem with hname | hvalue
  · have hfree := hproperty.nameCharacters character hname
    exact ⟨hfree.2.2.1, hfree.2.1⟩
  · rcases List.mem_cons.mp hvalue with hequals | hvalue
    · subst hequals
      decide
    · exact mem_escapeV2Property hvalue

theorem renderProperty_ne_nil (property : RawProperty) : renderProperty property ≠ [] := by
  simp [renderProperty]

theorem head_renderProperty {property : RawProperty}
    (hproperty : property.Renderable limits) (rest : Text) :
    ∀ character ∈ (renderProperty property ++ rest).head?, isWhitespace character = false := by
  intro character hmem
  cases hname : property.name with
  | nil => exact absurd hname hproperty.name
  | cons first =>
    simp only [renderProperty, hname, List.cons_append, List.head?_cons,
      Option.mem_some_iff] at hmem
    subst hmem
    exact (hproperty.nameCharacters first (hname ▸ List.mem_cons_self)).2.2.2

theorem trim_renderProperties (hproperties : ∀ property ∈ first :: rest, property.Renderable limits)
    (hlast : ∀ property ∈ (first :: rest).getLast?, ∀ character ∈ property.value.getLast?,
        isWhitespace character = false) :
    trim (List.intercalate [','] ((first :: rest).map renderProperty)) =
      List.intercalate [','] ((first :: rest).map renderProperty) := by
  have hshape : ∀ (first : RawProperty) (rest : List RawProperty),
      ∃ front last, (first :: rest).getLast? = some last ∧
        List.intercalate [','] ((first :: rest).map renderProperty) =
          front ++ renderProperty last := by
    intro first rest
    induction rest generalizing first with
    | nil => exact ⟨[], first, rfl, by simp⟩
    | cons second rest ih =>
      obtain ⟨front, last, hlast, hjoin⟩ := ih second
      refine ⟨renderProperty first ++ ',' :: front, last, ?_, ?_⟩
      · rw [List.getLast?_cons_cons, hlast]
      · rw [List.map_cons, List.map_cons]
        rw [List.map_cons] at hjoin
        simp only [List.intercalate_cons_cons, hjoin]
        simp
  refine trim_eq_self ?_ ?_
  · rw [List.forall_mem_cons] at hproperties
    cases rest with
    | nil => simpa using head_renderProperty hproperties.1 []
    | cons =>
      rw [List.map_cons, List.map_cons, List.intercalate_cons_cons, List.append_assoc]
      exact head_renderProperty hproperties.1 _
  · obtain ⟨front, last, hfound, hjoin⟩ := hshape first rest
    have hmember : last ∈ first :: rest := List.mem_of_getLast? hfound
    have hvalue := escapeV2Property_ne_nil (hproperties last hmember).value
    have hend := getLast_escapeV2Property (hlast last hfound)
    intro character hmem
    rw [hjoin, renderProperty, ← List.append_assoc] at hmem
    obtain ⟨value, more, hcons⟩ := List.exists_cons_of_ne_nil hvalue
    rw [hcons, List.getLast?_append, List.getLast?_cons_cons] at hmem
    rw [hcons] at hend
    refine hend character ?_
    cases hlastCharacter : (value :: more).getLast? with
    | none => simp at hlastCharacter
    | some =>
      rw [hlastCharacter] at hmem
      simpa using hmem

theorem parseProperties_render
    (hproperties : ∀ property ∈ first :: rest, property.Renderable limits)
    (hcount : (first :: rest).length ≤ limits.maximumProperties)
    (hdistinct : (first :: rest).Pairwise fun left right =>
      sameIgnoringCase left.name right.name = false) :
    parseProperties limits (List.intercalate [','] ((first :: rest).map renderProperty)) =
      .ok (first :: rest) := by
  have hsplit :
      splitWhere (· = ',') (List.intercalate [','] ((first :: rest).map renderProperty)) =
        (first :: rest).map renderProperty := by
    rw [List.map_cons]
    refine splitWhere_intercalate ?_ (by decide)
    intro part hpart character hmem
    rw [← List.map_cons] at hpart
    obtain ⟨property, hproperty, hrender⟩ := List.mem_map.mp hpart
    subst hrender
    have hfree := renderProperty_separators (hproperties property hproperty) character hmem
    simp [hfree.2]
  have hfilter :
      ((first :: rest).map renderProperty).filter (fun part => part ≠ []) =
        (first :: rest).map renderProperty := by
    rw [List.filter_eq_self]
    intro part hpart
    obtain ⟨property, -, hrender⟩ := List.mem_map.mp hpart
    subst hrender
    simp [renderProperty_ne_nil]
  have hfold :
      ((first :: rest).map renderProperty).foldlM (parseProperty limits)
        (0, []) = .ok ((first :: rest).length, first :: rest) := by
    have hall :
        ((first :: rest).map renderProperty).foldlM (parseProperty limits)
            (([] : List RawProperty).length, []) =
          .ok (([] : List RawProperty).length + (first :: rest).length, [] ++ (first :: rest)) :=
      foldlM_renderProperty hproperties (by simpa using hcount) (by simpa using hdistinct)
    simpa using hall
  unfold parseProperties
  simp only [hsplit, hfilter, hfold, ok_bind]
  rfl

theorem splitAtColons_append {before : Text} (hbefore : ':' ∉ before) (after : Text) :
    splitAtColons (before ++ ':' :: ':' :: after) = some (before, after) := by
  induction before with
  | nil => rfl
  | cons first rest ih =>
    rw [List.mem_cons, not_or] at hbefore
    rw [List.cons_append, splitAtColons.eq_2 _ _ (by
      intro more hfirst
      exact absurd hfirst.symm hbefore.1), ih hbefore.2]
    rfl

theorem colon_notMem_info (hcommand : command.Renderable limits) :
    ':' ∉ command.name ++ renderProperties command.properties := by
  have hname := (name_of_registered hcommand.name).2.1
  intro hmem
  rcases List.mem_append.mp hmem with hinName | hinProperties
  · exact hname hinName
  · have hproperties := hcommand.properties
    cases hlist : command.properties with
    | nil =>
      rw [hlist] at hinProperties
      cases hinProperties
    | cons =>
      rw [hlist] at hinProperties hproperties
      rcases List.mem_cons.mp hinProperties with hspace | hjoined
      · cases hspace
      · rcases mem_of_mem_intercalate hjoined with hcomma | ⟨part, hpart, hcolon⟩
        · cases hcomma
        · obtain ⟨property, hproperty, hrender⟩ := List.mem_map.mp hpart
          subst hrender
          exact (renderProperty_separators (hproperties property hproperty) ':' hcolon).1 rfl

theorem commandProperties_render (hcommand : command.Renderable limits) :
    commandProperties limits (command.name ++ renderProperties command.properties) =
      .ok command.properties := by
  obtain ⟨hname, -, hspace⟩ := name_of_registered hcommand.name
  have hproperties := hcommand.properties
  have hdistinct := hcommand.distinct
  have hlast := hcommand.lastValue
  have hcount := hcommand.propertyCount
  unfold commandProperties
  cases hlist : command.properties with
  | nil => rw [renderProperties, List.append_nil, splitAtFirst_eq_none hspace]
  | cons first rest =>
    rw [hlist] at hproperties hdistinct hlast hcount
    obtain ⟨character, more, hcons⟩ := List.exists_cons_of_ne_nil hname
    have hsplit :
        splitAtFirst ' ' (command.name ++ renderProperties (first :: rest)) =
          some (command.name, List.intercalate [','] ((first :: rest).map renderProperty)) :=
      splitAtFirst_append hspace
    rw [hsplit, hcons]
    simp only []
    rw [trim_renderProperties hproperties hlast,
      parseProperties_render hproperties hcount hdistinct]

/-- A rendered command is parsed back to the command. -/
theorem parseCommand_renderCommand {command : RawCommand}
    (hcommand : command.Renderable limits) (dynamicCommand : Option Text) :
    parseCommand limits (renderCommand command) dynamicCommand = .ok (some command) := by
  obtain ⟨hname, -, hspace⟩ := name_of_registered hcommand.name
  have htrim : trimStart (renderCommand command) = renderCommand command := by
    simp [trimStart, renderCommand, (by decide : isWhitespace ':' = false)]
  have hcolons :
      splitAtColons (command.name ++ renderProperties command.properties ++
            ':' :: ':' :: escapeV2Data command.data) =
        some (command.name ++ renderProperties command.properties, escapeV2Data command.data) :=
    splitAtColons_append (colon_notMem_info hcommand) _
  have hcommandName :
      commandName (command.name ++ renderProperties command.properties) = command.name := by
    unfold commandName
    cases command.properties with
    | nil =>
      rw [renderProperties, List.append_nil, splitAtFirst_eq_none hspace]
      rfl
    | cons =>
      rw [renderProperties, splitAtFirst_append hspace]
      · rfl
      · simp
  have hproperties :
      commandProperties limits (command.name ++ renderProperties command.properties) =
        .ok command.properties :=
    commandProperties_render hcommand
  have hregistered : registered command.name dynamicCommand = true := by
    have hknown := hcommand.name
    simp only [registered, Option.any_none, Bool.or_false] at hknown
    simp [registered, hknown]
  have hnameBytes : validateCommandName limits command.name = .ok () :=
    rejectIf_of_not _ (Nat.not_lt.mpr hcommand.nameBytes)
  have hdataBytes : validateData limits command.data = .ok () :=
    rejectIf_of_not _ (Nat.not_lt.mpr hcommand.dataBytes)
  unfold parseCommand
  rw [htrim]
  unfold renderCommand
  simp only []
  unfold parseCommandBody
  simp only [hcolons, hcommandName, hregistered, hnameBytes, hproperties,
    unescapeV2Data_escapeV2Data, hdataBytes, ok_bind]
  rfl

def sampleError : RawCommand :=
  ⟨"Error".toList, [⟨"file".toList, "a,b".toList⟩,
    ⟨"title".toList, "x: %3A".toList⟩], "100%25\r\n::done".toList⟩

theorem parseCommand_renderCommand_annotation :
    parseCommand ⟨100, 100, 10, 10, 2, 5, 20, 1⟩ (renderCommand sampleError) none =
      .ok (some sampleError) := by
  refine parseCommand_renderCommand ⟨by decide +kernel, by decide +kernel,
    ?_, by decide +kernel, ?_, by decide +kernel, by decide +kernel⟩ none
  · intro property hproperty
    simp only [sampleError, List.mem_cons, List.not_mem_nil, or_false] at hproperty
    rcases hproperty with hfile | htitle
    · subst hfile
      exact ⟨by decide, forall_mem_of_all (by decide), by decide, by decide, by decide⟩
    · subst htitle
      exact ⟨by decide, forall_mem_of_all (by decide), by decide, by decide, by decide⟩
  · intro property hproperty character hcharacter
    cases hproperty
    cases hcharacter
    decide

end AutomataCi
