import EventOperator.Proofs.Enrichment
import EventOperator.Proofs.Query.Sequence

/-!
Queries as lists of statements. What a query reads is what its statements name, each looked at by
itself, without what any of them has of its own, so the order of the statements does not matter to
enrichment.
-/

namespace EventOperator

open EventOperator.Text
open EventOperator.Query

namespace Text

variable {a b c : Char} {u v : List Char}

theorem infix_append_cons (ha : c ≠ a) (hb : c ≠ b) (h : [a, b] <:+: u ++ c :: v) :
    [a, b] <:+: u ∨ [a, b] <:+: v := by
  induction u with
  | nil =>
      rcases List.infix_cons_iff.mp h with hfront | hrest
      · exact absurd (List.cons_prefix_cons.mp hfront).1 ha.symm
      · exact Or.inr hrest
  | cons d u ih =>
      rcases List.infix_cons_iff.mp h with hfront | hrest
      · obtain ⟨rfl, hnext⟩ := List.cons_prefix_cons.mp hfront
        cases u with
        | nil => exact absurd (List.cons_prefix_cons.mp hnext).1 hb.symm
        | cons e u =>
            obtain ⟨rfl, -⟩ := List.cons_prefix_cons.mp hnext
            exact Or.inl ⟨[], u, rfl⟩
      · exact (ih hrest).imp_left fun hu => hu.trans (List.suffix_cons d u).isInfix

end Text

namespace Query

variable {s v name : List Char} {parts : List (List Char)}

/-- Nowhere in the text stand the words with which a partition begins. -/
def HasNoPartition (s : List Char) : Prop :=
  ∀ u v, s = u ++ v → isEdge u.getLast? v.head? = true →
    ((afterWord? (keyword "partition") v).bind afterBlanks?).bind (afterWord? (keyword "with")) =
      none

theorem hasNoPartition_iff :
    (∀ i < s.length + 1, isEdge (s.take i).getLast? (s.drop i).head? = true →
      ((afterWord? (keyword "partition") (s.drop i)).bind afterBlanks?).bind
        (afterWord? (keyword "with")) = none) ↔ HasNoPartition s := by
  constructor
  · intro h u v hs
    have hlength : u.length < s.length + 1 := by
      rw [hs, List.length_append]
      omega
    have hplace := h u.length hlength
    rwa [hs, List.take_left, List.drop_left] at hplace
  · exact fun h i _ => h (s.take i) (s.drop i) (List.take_append_drop i s).symm

instance (s : List Char) : Decidable (HasNoPartition s) := decidable_of_iff _ hasNoPartition_iff

/-- A text that stands between semicolons, outside of partitions, and holds no comment. -/
structure IsStatement (s : List Char) : Prop where
  undivided : ';' ∉ s
  commentFree : IsCommentFree s
  partitionFree : HasNoPartition s

instance (s : List Char) : Decidable (IsStatement s) :=
  decidable_of_iff (';' ∉ s ∧ IsCommentFree s ∧ HasNoPartition s)
    ⟨fun ⟨hundivided, hfree, hnone⟩ => ⟨hundivided, hfree, hnone⟩,
      fun h => ⟨h.undivided, h.commentFree, h.partitionFree⟩⟩

theorem HasNoPartition.afterPartition?_eq_none (h : HasNoPartition s) {u : List Char}
    (hs : s = u ++ v) (hedge : isEdge u.getLast? v.head? = true) : afterPartition? v = none := by
  have hnone := h u v hs hedge
  cases hblanks : (afterWord? (keyword "partition") v).bind afterBlanks? with
  | none => rw [afterPartition?, hblanks, Option.bind_none]
  | some behind =>
      rw [hblanks, Option.bind_some] at hnone
      rw [afterPartition?, hblanks, Option.bind_some, afterOpening?, hnone, Option.bind_none]

theorem HasNoPartition.hasClosedKeys (h : HasNoPartition s) : HasClosedKeys s := by
  intro u v hs hedge behind hbehind
  rw [h.afterPartition?_eq_none hs hedge] at hbehind
  exact nomatch hbehind

theorem HasNoPartition.captures_eq_nil (h : HasNoPartition s) : captures partitionKeys? s = [] := by
  rw [List.eq_nil_iff_forall_not_mem]
  intro keys hkeys
  obtain ⟨u, v, more, hs, hmatch⟩ := exists_match_of_mem_captures hkeys
  rw [partitionKeys?_eq_ite] at hmatch
  split at hmatch
  · rename_i hedge
    rw [h.afterPartition?_eq_none hs hedge] at hmatch
    exact nomatch hmatch
  · exact nomatch hmatch

theorem IsStatement.referencedNames_eq (h : IsStatement s) :
    referencedNames s = (captures fromClause? s).flatMap clauseSources := by
  rw [referencedNames, h.partitionFree.captures_eq_nil, statements,
    splitAt_of_not_mem h.undivided]
  simp

def joined (parts : List (List Char)) : List Char := [';'].intercalate parts

@[simp] theorem joined_nil : joined [] = [] := rfl

@[simp] theorem joined_singleton (s : List Char) : joined [s] = s := by simp [joined]

theorem joined_cons_cons (s t : List Char) (parts : List (List Char)) :
    joined (s :: t :: parts) = s ++ ';' :: joined (t :: parts) := by
  simp [joined, List.intercalate_cons_cons]

/-- Whatever holds of no statement and of a single one, and goes on to a statement in front of
others, holds of every list of statements. -/
@[elab_as_elim]
theorem joined_induction
    {motive : (parts : List (List Char)) → (∀ s ∈ parts, IsStatement s) → Prop}
    (nil : motive [] fun _ hs => absurd hs List.not_mem_nil)
    (last : ∀ s (hs : IsStatement s), motive [s] (List.forall_mem_singleton.mpr hs))
    (next : ∀ s t parts (hs : IsStatement s) (hrest : ∀ u ∈ t :: parts, IsStatement u),
      motive (t :: parts) hrest →
        motive (s :: t :: parts) (List.forall_mem_cons.mpr ⟨hs, hrest⟩))
    (parts : List (List Char)) (hparts : ∀ s ∈ parts, IsStatement s) : motive parts hparts := by
  induction parts with
  | nil => exact nil
  | cons s parts ih =>
      obtain ⟨hs, hrest⟩ := List.forall_mem_cons.mp hparts
      cases parts with
      | nil => exact last s hs
      | cons t parts => exact next s t parts hs hrest (ih hrest)

theorem isCommentFree_joined (hparts : ∀ s ∈ parts, IsStatement s) :
    IsCommentFree (joined parts) := by
  induction parts, hparts using joined_induction with
  | nil => exact ⟨by simp, by simp⟩
  | last s hs => simpa using hs.commentFree
  | next s t parts hs hrest ih =>
      rw [joined_cons_cons]
      constructor
      · intro hline
        exact (infix_append_cons (by decide) (by decide) hline).elim hs.commentFree.1 ih.1
      · intro hblock
        exact (infix_append_cons (by decide) (by decide) hblock).elim hs.commentFree.2 ih.2

theorem mem_localNames_joined (hparts : ∀ s ∈ parts, IsStatement s) (name : List Char) :
    name ∈ localNames (joined parts) ↔ ∃ s ∈ parts, name ∈ localNames s := by
  induction parts, hparts using joined_induction with
  | nil => simp
  | last s hs => simp
  | next s t parts hs hrest ih =>
      rw [joined_cons_cons, mem_localNames_append, ih]
      simp only [List.mem_cons, exists_eq_or_imp]

theorem captures_partitionKeys?_joined (hparts : ∀ s ∈ parts, IsStatement s) :
    captures partitionKeys? (joined parts) = [] := by
  induction parts, hparts using joined_induction with
  | nil => rfl
  | last s hs => simpa using hs.partitionFree.captures_eq_nil
  | next s t parts hs hrest ih =>
      rw [joined_cons_cons, hs.partitionFree.hasClosedKeys.captures_append,
        hs.partitionFree.captures_eq_nil, ih, List.append_nil]

theorem clauses_joined (hparts : ∀ s ∈ parts, IsStatement s) :
    (statements (joined parts)).flatMap (captures fromClause?) =
      parts.flatMap (captures fromClause?) := by
  induction parts, hparts using joined_induction with
  | nil => rfl
  | last s hs => simp [statements, splitAt_of_not_mem hs.undivided]
  | next s t parts hs hrest ih =>
      rw [joined_cons_cons, statements, splitAt_append hs.undivided, List.flatMap_cons,
        List.flatMap_cons, ← ih, statements]

theorem referencedNames_joined (hparts : ∀ s ∈ parts, IsStatement s) :
    referencedNames (joined parts) = parts.flatMap referencedNames := by
  have hsources := congrArg (List.flatMap clauseSources) (clauses_joined hparts)
  rw [List.flatMap_assoc, List.flatMap_assoc] at hsources
  have hparted : parts.flatMap referencedNames =
      parts.flatMap fun s => (captures fromClause? s).flatMap clauseSources := by
    rw [List.flatMap_def, List.flatMap_def,
      List.map_congr_left fun s hs => (hparts s hs).referencedNames_eq]
  rw [referencedNames, captures_partitionKeys?_joined hparts, List.flatMap_nil, List.nil_append,
    hsources, hparted]

theorem inputNames_joined (hparts : ∀ s ∈ parts, IsStatement s) :
    inputNames (joined parts) =
      ((parts.flatMap referencedNames).filter fun name =>
        ∀ s ∈ parts, name ∉ localNames s).eraseDups := by
  rw [inputNames, (isCommentFree_joined hparts).stripComments_eq, referencedNames_joined hparts,
    distinct_eq_eraseDups]
  congr 1
  apply List.filter_congr
  intro name _
  rw [Bool.eq_iff_iff]
  simp [mem_localNames_joined hparts]

variable {streams : Schema.Registry} {body other : String} {plan? : Option String}

theorem enrich_of_same_streams
    (hsame : ∀ stream, stream ∈ inputStreams body ↔ stream ∈ inputStreams other) :
    ((∃ stream, enrich (some streams) (some body) plan? = .error (.undefinedStream stream none)) ∧
        ∃ stream,
          enrich (some streams) (some other) plan? = .error (.undefinedStream stream none)) ∨
      ∃ definitions,
        enrich (some streams) (some body) plan? = .ok (definitions ++ body) ∧
          enrich (some streams) (some other) plan? = .ok (definitions ++ other) := by
  by_cases hall : ∀ stream ∈ inputStreams body, stream ∈ streams.keys
  · have hother : ∀ stream ∈ inputStreams other, stream ∈ streams.keys :=
      fun stream hmem => hall stream ((hsame stream).mpr hmem)
    have hcontains : (inputStreams body).contains = (inputStreams other).contains := by
      funext stream
      rw [Bool.eq_iff_iff]
      simp [hsame stream]
    refine Or.inr ⟨streams.definitionsOf (inputStreams body).contains, ?_, ?_⟩
    · exact enrich_eq_ok_iff.mpr ⟨hall, rfl⟩
    · exact enrich_eq_ok_iff.mpr ⟨hother, by rw [hcontains]⟩
  · have hother : ¬ ∀ stream ∈ inputStreams other, stream ∈ streams.keys :=
      fun h => hall fun stream hmem => h stream ((hsame stream).mp hmem)
    exact Or.inl ⟨exists_enrich_eq_error hall, exists_enrich_eq_error hother⟩

variable {parts : List String}

theorem toList_intercalate_semicolon (parts : List String) :
    (";".intercalate parts).toList = joined (parts.map String.toList) :=
  String.toList_intercalate

theorem isStatement_map (hparts : ∀ s ∈ parts, IsStatement s.toList) :
    ∀ s ∈ parts.map String.toList, IsStatement s := by
  simpa using hparts

theorem inputStreams_intercalate (hparts : ∀ s ∈ parts, IsStatement s.toList) :
    inputStreams (";".intercalate parts) =
      ((parts.flatMap fun s => referencedNames s.toList).filter fun name =>
        ∀ s ∈ parts, name ∉ localNames s.toList).eraseDups.map String.ofList := by
  rw [inputStreams, toList_intercalate_semicolon, inputNames_joined (isStatement_map hparts),
    List.flatMap_map]
  simp only [List.forall_mem_map]

theorem mem_inputStreams_intercalate (hparts : ∀ s ∈ parts, IsStatement s.toList)
    (stream : String) :
    stream ∈ inputStreams (";".intercalate parts) ↔
      (∃ s ∈ parts, stream.toList ∈ referencedNames s.toList) ∧
        ∀ s ∈ parts, stream.toList ∉ localNames s.toList := by
  rw [mem_inputStreams, toList_intercalate_semicolon,
    inputNames_joined (isStatement_map hparts), List.flatMap_map]
  simp

/-- A query is read statement by statement: it reads what its statements name, in order, without what
any of them has of its own. So the order of the statements decides neither whether it can be
enriched nor which definitions it then gets. -/
theorem inputStreams_statements (hparts : ∀ s ∈ parts, IsStatement s.toList) :
    inputStreams (";".intercalate parts) =
        ((parts.flatMap fun s => referencedNames s.toList).filter fun name =>
          ∀ s ∈ parts, name ∉ localNames s.toList).eraseDups.map String.ofList ∧
      ∀ others, parts.Perm others → ∀ (streams : Schema.Registry) (plan? : Option String),
        ((∃ stream, enrich (some streams) (some (";".intercalate parts)) plan? =
              .error (.undefinedStream stream none)) ∧
            ∃ stream, enrich (some streams) (some (";".intercalate others)) plan? =
              .error (.undefinedStream stream none)) ∨
          ∃ definitions,
            enrich (some streams) (some (";".intercalate parts)) plan? =
                .ok (definitions ++ ";".intercalate parts) ∧
              enrich (some streams) (some (";".intercalate others)) plan? =
                .ok (definitions ++ ";".intercalate others) := by
  refine ⟨inputStreams_intercalate hparts, ?_⟩
  intro others hperm streams plan?
  have hothers : ∀ s ∈ others, IsStatement s.toList := fun s hs => hparts s (hperm.mem_iff.mpr hs)
  apply enrich_of_same_streams
  intro stream
  rw [mem_inputStreams_intercalate hparts, mem_inputStreams_intercalate hothers]
  simp only [hperm.mem_iff]

/-- The last statement fills the stream that the first one reads; the second one breaks off. -/
def marketStatements : List String :=
  ["from Rises as r select r.symbol insert into Alerts", " define stream",
    "\nfrom every t=Ticks[price > 1] -> Ticks <2:> select t.symbol insert expired events into Rises"]

theorem inputStreams_statements_market :
    inputStreams (";".intercalate marketStatements) = ["Ticks"] ∧
      ∃ definitions,
        enrich (some marketStreams) (some (";".intercalate marketStatements)) none =
            .ok (definitions ++ ";".intercalate marketStatements) ∧
          enrich (some marketStreams) (some (";".intercalate marketStatements.reverse)) none =
            .ok (definitions ++ ";".intercalate marketStatements.reverse) := by
  have hparts : ∀ s ∈ marketStatements, IsStatement s.toList := by decide +kernel
  obtain ⟨hread, horder⟩ := inputStreams_statements hparts
  have hstreams : inputStreams (";".intercalate marketStatements) = ["Ticks"] :=
    hread.trans (by decide +kernel)
  have hdefined : ∀ stream ∈ inputStreams (";".intercalate marketStatements),
      stream ∈ marketStreams.keys := by
    rw [hstreams]
    decide
  have hfine : ∀ stream, enrich (some marketStreams) (some (";".intercalate marketStatements)) none ≠
      .error (.undefinedStream stream none) := by
    intro stream
    rw [enrich_eq_ok_iff.mpr ⟨hdefined, rfl⟩]
    exact fun h => nomatch h
  refine ⟨hstreams, ?_⟩
  rcases horder _ (List.reverse_perm marketStatements).symm marketStreams none with hfails | hprefix
  · obtain ⟨⟨stream, hstream⟩, -⟩ := hfails
    exact absurd hstream (hfine stream)
  · exact hprefix

end Query

end EventOperator
