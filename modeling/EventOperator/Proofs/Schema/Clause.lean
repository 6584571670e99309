import EventOperator.Proofs.Schema.Definition

/-!
The patterns for clauses in a definition. A definition is read back as the name of its stream, and
it holds no target, no key and no `from` clause, even where an attribute has the name of a keyword.
-/

namespace EventOperator

open EventOperator.Text
open EventOperator.Query

variable {β : Type} {name stream : List Char} {list : List Attribute} {v : List Char}

/-- A word other than `from`, in any case. -/
def Ordinary (name : List Char) : Prop :=
  IsRun name ∧ name.map Char.toLower ≠ keyword "from"

instance (name : List Char) : Decidable (Ordinary name) := inferInstanceAs (Decidable (_ ∧ _))

theorem Ordinary.not_spells (h : Ordinary name) : ¬ Spells (keyword "from") name :=
  fun hspells => h.2 (hspells.toLower_eq (Or.inl (by decide)))

theorem afterBlanks?_name (type : AttributeType) (v : List Char) :
    afterBlanks? (' ' :: (type.name.toList ++ v)) = some (type.name.toList ++ v) := by
  cases type <;> rfl

theorem blanksBehind_ignores {word : List Char}
    {next : List Char → List Char → Option (Nat × β)} (hletters : IsLetters word)
    (hnames : ∀ a ∈ list, IsRun a.name.toList)
    (htypes : ∀ type : AttributeType, ¬ Spells word type.name.toList)
    (hnext : ∀ (type : AttributeType) (s : List Char) {v : List Char}, EndsAttribute v →
      next s (type.name.toList ++ v) = none) :
    IgnoresAttributes (blanksBehind word next) list where
  toWordwise := blanksBehind_wordwise hletters
  atName := by
    intro a ha v hv
    rw [blanksBehind_run hletters (hnames a ha) (isWordAt_blank _), afterBlanks?_name]
    split
    · exact hnext a.type _ hv
    · rfl
  atType := by
    intro type v hv
    rw [blanksBehind_run hletters type.isRun_name hv, if_neg (htypes type)]

theorem definedName?_ignores (hnames : ∀ a ∈ list, IsRun a.name.toList) :
    IgnoresAttributes definedName? list := by
  rw [definedName?_eq]
  apply blanksBehind_ignores isLetters_define hnames
  · exact fun type => type.not_spells_name _ (by decide)
  · intro type s v hv
    rw [type.kindBehind?_name]
    rfl

theorem insertedName?_ignores (hnames : ∀ a ∈ list, IsRun a.name.toList) :
    IgnoresAttributes insertedName? list := by
  rw [insertedName?_eq]
  apply blanksBehind_ignores isLetters_insert hnames
  · exact fun type => type.not_spells_name _ (by decide)
  · intro type s v hv
    rw [hv.afterEventKind? type, hv.target? type]
    rfl

theorem partitionKeys?_ignores (hnames : ∀ a ∈ list, IsRun a.name.toList) :
    IgnoresAttributes partitionKeys? list := by
  rw [partitionKeys?_eq]
  apply blanksBehind_ignores isLetters_partition hnames
  · exact fun type => type.not_spells_name _ (by decide)
  · intro type s v hv
    rw [type.afterOpening?_name]
    rfl

theorem fromClause?_eq_none {w : List Char} (hw : IsRun w) (hfrom : ¬ Spells (keyword "from") w)
    (hv : isWordAt v.head? = false) : fromClause? none (w ++ v) = none := by
  rw [fromClause?_eq, borderBehind_run isLetters_from hw hv, if_neg hfrom]

theorem fromClause?_ignores (hnames : ∀ a ∈ list, Ordinary a.name.toList) :
    IgnoresAttributes fromClause? list where
  toWordwise := fromClause?_wordwise
  atName := by
    intro a ha v hv
    exact fromClause?_eq_none (hnames a ha).1 (hnames a ha).not_spells (isWordAt_blank _)
  atType := by
    intro type v hv
    exact fromClause?_eq_none type.isRun_name (type.not_spells_name _ (by decide)) hv

theorem blanksBehind_ignoresDefinition {word : List Char}
    {next : List Char → List Char → Option (Nat × β)} (hletters : IsLetters word)
    (hattributes : IgnoresAttributes (blanksBehind word next) list) (hstream : IsRun stream)
    (hdefine : ¬ Spells word (keyword "define")) (hkind : ¬ Spells word (keyword "stream"))
    (hnext : ∀ s v, next s ('(' :: v) = none) :
    IgnoresDefinition (blanksBehind word next) stream list where
  toIgnoresAttributes := hattributes
  atDefine := by
    intro v
    rw [blanksBehind_run hletters isRun_define (isWordAt_blank _), if_neg hdefine]
  atKind := by
    intro v
    rw [blanksBehind_run hletters isRun_stream (isWordAt_blank _), if_neg hkind]
  atStream := by
    intro v
    have hblanks : afterBlanks? (' ' :: '(' :: v) = some ('(' :: v) := rfl
    rw [blanksBehind_run hletters hstream (isWordAt_blank _), hblanks, Option.bind_some, hnext]
    exact ite_self none

theorem insertedName?_ignoresDefinition (hstream : IsRun stream)
    (hnames : ∀ a ∈ list, IsRun a.name.toList) :
    IgnoresDefinition insertedName? stream list := by
  have hattributes := insertedName?_ignores hnames
  rw [insertedName?_eq] at hattributes ⊢
  exact blanksBehind_ignoresDefinition isLetters_insert hattributes hstream (by decide) (by decide)
    fun s v => rfl

theorem partitionKeys?_ignoresDefinition (hstream : IsRun stream)
    (hnames : ∀ a ∈ list, IsRun a.name.toList) :
    IgnoresDefinition partitionKeys? stream list := by
  have hattributes := partitionKeys?_ignores hnames
  rw [partitionKeys?_eq] at hattributes ⊢
  exact blanksBehind_ignoresDefinition isLetters_partition hattributes hstream (by decide)
    (by decide) fun s v => rfl

theorem fromClause?_ignoresDefinition (hstream : Ordinary stream)
    (hnames : ∀ a ∈ list, Ordinary a.name.toList) :
    IgnoresDefinition fromClause? stream list where
  toIgnoresAttributes := fromClause?_ignores hnames
  atDefine := fun v => fromClause?_eq_none isRun_define (by decide) (isWordAt_blank v)
  atKind := fun v => fromClause?_eq_none isRun_stream (by decide) (isWordAt_blank v)
  atStream := fun v => fromClause?_eq_none hstream.1 hstream.not_spells (isWordAt_blank _)

theorem definedName?_takes (hstream : IsRun stream) (v : List Char) :
    Takes definedName? (Schema.headText stream) (' ' :: '(' :: v) stream := by
  obtain ⟨c, rest, rfl⟩ := List.exists_cons_of_ne_nil hstream.1
  have hc : isBlank c = false := by
    cases hblank : isBlank c with
    | false => rfl
    | true => exact absurd (hstream.2 c List.mem_cons_self) (by simp [isWord_of_isBlank hblank])
  have hkind : afterBlanks? (' ' :: (keyword "stream" ++ ' ' :: (c :: rest ++ ' ' :: '(' :: v))) =
      some (keyword "stream" ++ ' ' :: (c :: rest ++ ' ' :: '(' :: v)) := rfl
  have hname : (kindBehind? (keyword "stream" ++ ' ' :: (c :: rest ++ ' ' :: '(' :: v))).bind
      afterBlanks? = some (c :: rest ++ ' ' :: '(' :: v) := by
    have hbehind : kindBehind? (keyword "stream" ++ ' ' :: (c :: rest ++ ' ' :: '(' :: v)) =
        some (' ' :: (c :: rest ++ ' ' :: '(' :: v)) := rfl
    have hblank : isBlank ' ' = true := by decide
    rw [hbehind, Option.bind_some]
    simp [afterBlanks?, hblank, hc]
  refine ⟨by simp [Schema.headText], ?_⟩
  rw [definedName?_eq, Schema.headText, List.append_assoc, List.cons_append,
    blanksBehind_run isLetters_define isRun_define (isWordAt_blank _), if_pos (by decide),
    List.append_assoc, List.cons_append, hkind, Option.bind_some, hname, Option.bind_some, nameBehind,
    wordRun?_append hstream (isWordAt_blank _)]
  rfl

theorem captures_definedName?_definition (hstream : IsRun stream)
    (hnames : ∀ a ∈ list, IsRun a.name.toList) (v : List Char) :
    captures definedName? (Schema.definitionText stream list ++ v) =
      stream :: captures definedName? v := by
  have htail := captures_of_scan_inl ((definedName?_ignores hnames).scan_tail hnames v)
  have hhead := captures_of_scan_inr (scan_take
    (definedName?_takes hstream (Schema.attributesText list ++ [')'] ++ v))
    (definedName?_stopsAt.eq_of_apart (Or.inr (isWordAt_blank _))))
  rw [← htail]
  simpa [Schema.definitionText] using hhead

end EventOperator
