import EventOperator.Proofs.Query.Clause
import EventOperator.Schema

/-!
Definitions of streams, read back by the patterns that look for clauses: a definition names the
stream that it defines, and no other clause begins in it.
-/

namespace EventOperator

open EventOperator.Text
open EventOperator.Query

variable {β : Type} {p : Pattern β} {name stream : List Char} {type : AttributeType}
  {list : List Attribute} {v : List Char}

theorem isWord_blank : isWord ' ' = false := by decide

theorem isWordAt_blank (v : List Char) : isWordAt (' ' :: v).head? = false := isWord_blank

namespace Schema

def attributesText (list : List Attribute) : List Char :=
  [',', ' '].intercalate (list.map fun a => a.text.toList)

def headText (stream : List Char) : List Char :=
  keyword "define" ++ ' ' :: (keyword "stream" ++ ' ' :: stream)

/-- A definition without the semicolon that ends it. -/
def definitionText (stream : List Char) (list : List Attribute) : List Char :=
  headText stream ++ ' ' :: '(' :: (attributesText list ++ [')'])

theorem toList_definition (stream : String) (list : List Attribute) :
    ((attributes list).definition stream).toList =
      definitionText stream.toList list ++ [';'] := by
  have htext : (attributes list).definition stream = "define stream " ++ stream ++ " (" ++
      commaSeparated (list.map Attribute.text) ++ ");" := rfl
  have hlist : (commaSeparated (list.map Attribute.text)).toList = attributesText list := by
    rw [commaSeparated, String.toList_intercalate, List.map_map]
    rfl
  have hparts : ((attributes list).definition stream).toList =
      keyword "define" ++ ([' '] ++ (keyword "stream" ++ [' '])) ++ stream.toList ++ [' ', '('] ++
        attributesText list ++ [')', ';'] := by
    rw [htext, ← hlist]
    simp only [String.toList_append]
    rfl
  rw [hparts]
  simp [definitionText, headText]

end Schema

theorem attributesText_cons_cons (a b : Attribute) (rest : List Attribute) :
    Schema.attributesText (a :: b :: rest) =
      a.text.toList ++ ',' :: ' ' :: Schema.attributesText (b :: rest) := by
  simp [Schema.attributesText, List.intercalate]

theorem attributesText_singleton (a : Attribute) :
    Schema.attributesText [a] = a.text.toList := by
  simp [Schema.attributesText]

theorem Attribute.toList_text (a : Attribute) :
    a.text.toList = a.name.toList ++ ' ' :: a.type.name.toList := by
  rw [Attribute.text, String.toList_append, String.toList_append, List.append_assoc]
  rfl

namespace AttributeType

theorem isRun_name (type : AttributeType) : IsRun type.name.toList := by
  cases type <;> decide

theorem not_spells_name (type : AttributeType) :
    ∀ word ∈ [keyword "define", keyword "insert", keyword "into", keyword "partition",
      keyword "from"], ¬ Spells word type.name.toList := by
  cases type <;> decide

theorem kindBehind?_name (type : AttributeType) (v : List Char) :
    kindBehind? (type.name.toList ++ v) = none := by
  cases type <;> rfl

theorem afterOpening?_name (type : AttributeType) (v : List Char) :
    afterOpening? (type.name.toList ++ v) = none := by
  cases type <;> rfl

end AttributeType

def EndsAttribute (v : List Char) : Prop := v.head? = some ',' ∨ v.head? = some ')'

theorem EndsAttribute.isWordAt (hv : EndsAttribute v) : isWordAt v.head? = false := by
  rcases hv with hv | hv <;> rw [hv] <;> decide

theorem EndsAttribute.afterBlanks? (hv : EndsAttribute v) : afterBlanks? v = none := by
  cases v with
  | nil => rfl
  | cons c v =>
      have hc : isBlank c = false := by
        rcases hv with hv | hv <;> obtain rfl := Option.some.inj hv <;> decide
      simp [Text.afterBlanks?, hc]

theorem EndsAttribute.target? (hv : EndsAttribute v) (type : AttributeType) :
    target? (type.name.toList ++ v) = none := by
  rw [target?_eq, afterWord?_bind_afterBlanks? isLetters_into type.isRun_name hv.isWordAt,
    if_neg (type.not_spells_name _ (by decide))]
  rfl

theorem EndsAttribute.afterEventKind? (hv : EndsAttribute v) (type : AttributeType) :
    afterEventKind? (type.name.toList ++ v) = none := by
  rw [afterEventKind?_eq, wordRun?_append type.isRun_name hv.isWordAt]
  simp [eventsBehind?, hv.afterBlanks?]

/-- A pattern that begins nowhere in a list of attributes. -/
structure IgnoresAttributes (p : Pattern β) (list : List Attribute) : Prop extends p.Wordwise where
  atName : ∀ a ∈ list, ∀ {v}, EndsAttribute v →
    p none (a.name.toList ++ ' ' :: (a.type.name.toList ++ v)) = none
  atType : ∀ type : AttributeType, ∀ {v}, isWordAt v.head? = false →
    p none (type.name.toList ++ v) = none

theorem IgnoresAttributes.scan_text {a : Attribute} (hp : IgnoresAttributes p list)
    (ha : a ∈ list) (hname : IsRun a.name.toList) (hv : EndsAttribute v) :
    scan p (a.text.toList ++ v) = a.text.toList.map .inl ++ scan p v := by
  have htype := hp.scan_run a.type.isRun_name hv.isWordAt (hp.atType a.type hv.isWordAt)
  have hname := hp.scan_run hname (isWordAt_blank _)
    (hp.atName a ha hv)
  rw [a.toList_text, List.append_assoc, List.cons_append, hname, hp.scan_other isWord_blank, htype]
  simp

theorem IgnoresAttributes.scan_attributes (hp : IgnoresAttributes p list)
    (hnames : ∀ a ∈ list, IsRun a.name.toList) (hv : v.head? = some ')') :
    scan p (Schema.attributesText list ++ v) =
      (Schema.attributesText list).map .inl ++ scan p v := by
  have hsublist : ∀ rest ⊆ list, scan p (Schema.attributesText rest ++ v) =
      (Schema.attributesText rest).map .inl ++ scan p v := by
    intro rest hrest
    induction rest with
    | nil => rfl
    | cons a rest ih =>
        have ha := hrest List.mem_cons_self
        have htail := ih fun b hb => hrest (List.mem_cons_of_mem a hb)
        cases rest with
        | nil =>
            rw [attributesText_singleton]
            exact hp.scan_text ha (hnames a ha) (Or.inr hv)
        | cons b rest =>
            rw [attributesText_cons_cons, List.append_assoc, hp.scan_text ha (hnames a ha) (Or.inl rfl),
              List.cons_append, hp.scan_other (by decide), List.cons_append,
              hp.scan_other (by decide), htail]
            simp
  exact hsublist list fun a ha => ha

theorem IgnoresAttributes.scan_tail (hp : IgnoresAttributes p list)
    (hnames : ∀ a ∈ list, IsRun a.name.toList) (v : List Char) :
    scan p (' ' :: '(' :: (Schema.attributesText list ++ [')']) ++ v) =
      (' ' :: '(' :: (Schema.attributesText list ++ [')'])).map .inl ++ scan p v := by
  have hlist := hp.scan_attributes hnames (v := ')' :: v) rfl
  rw [List.cons_append, hp.scan_other (by decide), List.cons_append, hp.scan_other (by decide),
    List.append_assoc, List.singleton_append, hlist, hp.scan_other (by decide)]
  simp

theorem isRun_define : IsRun (keyword "define") := by decide

theorem isRun_stream : IsRun (keyword "stream") := by decide

/-- A pattern that begins nowhere in a definition. -/
structure IgnoresDefinition (p : Pattern β) (stream : List Char) (list : List Attribute) : Prop
    extends IgnoresAttributes p list where
  atDefine : ∀ v, p none (keyword "define" ++ ' ' :: v) = none
  atKind : ∀ v, p none (keyword "stream" ++ ' ' :: v) = none
  atStream : ∀ v, p none (stream ++ ' ' :: '(' :: v) = none

theorem IgnoresDefinition.scan_definitionText (hp : IgnoresDefinition p stream list)
    (hstream : IsRun stream) (hnames : ∀ a ∈ list, IsRun a.name.toList) (v : List Char) :
    scan p (Schema.definitionText stream list ++ v) =
      (Schema.definitionText stream list).map .inl ++ scan p v := by
  have htail := hp.scan_tail hnames v
  have hname := hp.scan_run hstream (isWordAt_blank _)
    (hp.atStream (Schema.attributesText list ++ [')'] ++ v))
  have hkind := hp.scan_run isRun_stream (isWordAt_blank _)
    (hp.atKind (stream ++ ' ' :: '(' :: (Schema.attributesText list ++ [')'] ++ v)))
  have hdefine := hp.scan_run isRun_define (isWordAt_blank _) (hp.atDefine (keyword "stream" ++
    ' ' :: (stream ++ ' ' :: '(' :: (Schema.attributesText list ++ [')'] ++ v))))
  simp only [List.cons_append] at htail
  simp only [Schema.definitionText, Schema.headText, List.append_assoc, List.cons_append] at *
  rw [hdefine, hp.scan_other isWord_blank, hkind, hp.scan_other isWord_blank, hname, htail]
  simp

def isDefinitionChar (c : Char) : Bool :=
  isWord c || c = ' ' || c = ',' || c = '(' || c = ')'

theorem isDefinitionChar_of_isRun (hname : IsRun name) :
    ∀ c ∈ name, isDefinitionChar c = true := by
  intro c hc
  simp [isDefinitionChar, hname.2 c hc]

theorem isDefinitionChar_text {a : Attribute} (hname : IsRun a.name.toList) :
    ∀ c ∈ a.text.toList, isDefinitionChar c = true := by
  intro c hc
  rw [a.toList_text, List.mem_append, List.mem_cons] at hc
  rcases hc with hc | rfl | hc
  · exact isDefinitionChar_of_isRun hname c hc
  · decide
  · exact isDefinitionChar_of_isRun a.type.isRun_name c hc

theorem isDefinitionChar_attributesText (hnames : ∀ a ∈ list, IsRun a.name.toList) :
    ∀ c ∈ Schema.attributesText list, isDefinitionChar c = true := by
  induction list with
  | nil => exact fun c hc => absurd hc (by simp [Schema.attributesText])
  | cons a rest ih =>
      have ha := isDefinitionChar_text (hnames a List.mem_cons_self)
      have hrest := ih fun b hb => hnames b (List.mem_cons_of_mem a hb)
      cases rest with
      | nil => exact attributesText_singleton a ▸ ha
      | cons b rest =>
          intro c hc
          rw [attributesText_cons_cons, List.mem_append, List.mem_cons, List.mem_cons] at hc
          rcases hc with hc | rfl | rfl | hc
          · exact ha c hc
          · decide
          · decide
          · exact hrest c hc

theorem isDefinitionChar_definitionText (hstream : IsRun stream)
    (hnames : ∀ a ∈ list, IsRun a.name.toList) :
    ∀ c ∈ Schema.definitionText stream list, isDefinitionChar c = true := by
  intro c hc
  simp only [Schema.definitionText, Schema.headText, List.mem_append, List.mem_cons,
    List.not_mem_nil, or_false] at hc
  rcases hc with (hc | rfl | hc | rfl | hc) | rfl | rfl | hc | rfl
  · exact isDefinitionChar_of_isRun isRun_define c hc
  · decide
  · exact isDefinitionChar_of_isRun isRun_stream c hc
  · decide
  · exact isDefinitionChar_of_isRun hstream c hc
  · decide
  · decide
  · exact isDefinitionChar_attributesText hnames c hc
  · decide

theorem not_mem_definitionText {c : Char} (hc : isDefinitionChar c = false) (hstream : IsRun stream)
    (hnames : ∀ a ∈ list, IsRun a.name.toList) : c ∉ Schema.definitionText stream list := by
  intro hmem
  simp [isDefinitionChar_definitionText hstream hnames c hmem] at hc

end EventOperator
