import EventOperator.Proofs.Query.Comment
import EventOperator.Proofs.Query.Reference

/-!
Queries one behind another. A query that holds no comment, that ends with a semicolon and that closes
the keys of all its partitions names the same streams, whatever stands behind it.
-/

namespace EventOperator.Query

open EventOperator.Text

variable {s u v gap behind name : List Char}

/-- Blanks may follow the last semicolon. -/
def IsTerminated (s : List Char) : Prop := (s.reverse.dropWhile isBlank).head? = some ';'

instance (s : List Char) : Decidable (IsTerminated s) := inferInstanceAs (Decidable (_ = _))

theorem IsTerminated.exists_append (h : IsTerminated s) :
    ∃ u gap, s = u ++ ';' :: gap ∧ ∀ c ∈ gap, isBlank c = true := by
  obtain ⟨front, hfront⟩ := List.head?_eq_some_iff.mp h
  refine ⟨front.reverse, (s.reverse.takeWhile isBlank).reverse, ?_, ?_⟩
  · have hreverse : s.reverse = s.reverse.takeWhile isBlank ++ ';' :: front := by
      rw [← hfront, List.takeWhile_append_dropWhile]
    have hs := congrArg List.reverse hreverse
    simpa using hs
  · intro c hc
    exact List.all_eq_true.mp List.all_takeWhile c (List.mem_reverse.mp hc)

theorem isWord_of_mem_blanks (hgap : ∀ c ∈ gap, isBlank c = true) :
    ∀ c ∈ gap, isWord c = false :=
  fun c hc => isWord_of_isBlank (hgap c hc)

theorem getLast?_semicolon (hgap : ∀ c ∈ gap, isBlank c = true) (u : List Char) :
    ∃ c, (u ++ ';' :: gap).getLast? = some c ∧ (c = ';' ∨ isBlank c = true) := by
  rw [List.getLast?_append, List.getLast?_eq_some_getLast (List.cons_ne_nil ';' gap)]
  refine ⟨_, rfl, ?_⟩
  rcases List.mem_cons.mp (List.getLast_mem (List.cons_ne_nil ';' gap)) with h | h
  · exact Or.inl h
  · exact Or.inr (hgap _ h)

theorem IsTerminated.endsOutside (h : IsTerminated s) : EndsOutside s := by
  obtain ⟨u, gap, rfl, hgap⟩ := h.exists_append
  obtain ⟨c, hlast, hc⟩ := getLast?_semicolon hgap u
  rw [EndsOutside, hlast]
  constructor <;> intro heq <;> obtain rfl := Option.some.inj heq <;> revert hc <;> decide

theorem captures_blanks {β : Type} {p : Pattern β} (hp : p.Wordwise)
    (hgap : ∀ c ∈ gap, isBlank c = true) (v : List Char) :
    captures p (gap ++ v) = captures p v :=
  captures_of_scan_inl (hp.scan_others (isWord_of_mem_blanks hgap))

@[simp] theorem localNames_nil : localNames [] = [] := rfl

theorem localNames_blanks_append (hgap : ∀ c ∈ gap, isBlank c = true) (v : List Char) :
    localNames (gap ++ v) = localNames v := by
  rw [localNames, captures_blanks definedName?_stopsAt.toWordwise hgap,
    captures_blanks insertedName?_stopsAt.toWordwise hgap, localNames]

theorem localNames_blanks (hgap : ∀ c ∈ gap, isBlank c = true) : localNames gap = [] := by
  rw [← List.append_nil gap, localNames_blanks_append hgap, localNames_nil]

theorem IsTerminated.mem_localNames_append (h : IsTerminated s) (name v : List Char) :
    name ∈ localNames (s ++ v) ↔ name ∈ localNames s ∨ name ∈ localNames v := by
  obtain ⟨u, gap, rfl, hgap⟩ := h.exists_append
  rw [List.append_assoc, List.cons_append, Query.mem_localNames_append,
    Query.mem_localNames_append, localNames_blanks_append hgap, localNames_blanks hgap]
  simp

theorem statements_append (u v : List Char) :
    statements (u ++ ';' :: v) = statements u ++ statements v :=
  splitAt_append_splitAt ';' u v

theorem statements_blanks (hgap : ∀ c ∈ gap, isBlank c = true) (v : List Char) :
    (statements (gap ++ v)).flatMap (captures fromClause?) =
      (statements v).flatMap (captures fromClause?) := by
  induction gap with
  | nil => rfl
  | cons c gap ih =>
      have hrest := ih fun d hd => hgap d (List.mem_cons_of_mem c hd)
      have hc := hgap c List.mem_cons_self
      have hne : c ≠ ';' := ne_of_holds hc (by decide)
      rw [← hrest, List.cons_append, statements, statements, splitAt]
      split
      · rename_i hnil
        exact absurd hnil (splitAt_ne_nil ';' (gap ++ v))
      · rename_i part parts hparts
        have hpart : captures fromClause? (c :: part) = captures fromClause? part :=
          captures_of_scan_inl (u := [c]) (fromClause?_wordwise.scan_other (isWord_of_isBlank hc))
        rw [if_neg hne, hparts, List.flatMap_cons, List.flatMap_cons, hpart]

theorem clauses_blanks (hgap : ∀ c ∈ gap, isBlank c = true) :
    (statements gap).flatMap (captures fromClause?) = [] := by
  simpa [statements, splitAt] using statements_blanks hgap []

theorem IsTerminated.clauses_append (h : IsTerminated s) (v : List Char) :
    (statements (s ++ v)).flatMap (captures fromClause?) =
      (statements s).flatMap (captures fromClause?)
        ++ (statements v).flatMap (captures fromClause?) := by
  obtain ⟨u, gap, rfl, hgap⟩ := h.exists_append
  rw [List.append_assoc, List.cons_append, statements_append, statements_append,
    List.flatMap_append, List.flatMap_append, statements_blanks hgap, clauses_blanks hgap,
    List.append_nil]

/-- The text behind the parenthesis of `partition with (`. -/
def afterPartition? (s : List Char) : Option (List Char) :=
  ((afterWord? (keyword "partition") s).bind afterBlanks?).bind afterOpening?

/-- Wherever the keys of a partition are opened, they are closed later in the text. -/
def HasClosedKeys (s : List Char) : Prop :=
  ∀ u v, s = u ++ v → isEdge u.getLast? v.head? = true →
    ∀ behind, afterPartition? v = some behind → (keys? behind).isSome = true

instance (s : List Char) : Decidable (HasClosedKeys s) :=
  decidable_of_iff
    (∀ i < s.length + 1, isEdge (s.take i).getLast? (s.drop i).head? = true →
      ∀ behind ∈ afterPartition? (s.drop i), (keys? behind).isSome = true)
    ⟨fun h u v hs => by
        have hlength : u.length < s.length + 1 := by rw [hs, List.length_append]; omega
        have hplace := h u.length hlength
        rwa [hs, List.take_left, List.drop_left] at hplace,
      fun h i _ => h (s.take i) (s.drop i) (List.take_append_drop i s).symm⟩

theorem partitionKeys?_eq_ite (before : Option Char) (s : List Char) :
    partitionKeys? before s =
      if isEdge before s.head? then
        (afterPartition? s).bind fun behind =>
          (keys? behind).bind fun found => some (taken s found.2 found.1)
      else none := by
  rw [partitionKeys?_eq, blanksBehind_eq]
  simp only [afterPartition?, Option.bind_assoc]

theorem after?_halts {c stop : Char} (hne : stop ≠ c) : Halts (after? c) stop := by
  intro u v
  cases u with
  | nil => simp [after?, hne]
  | cons d u =>
      simp only [after?, List.cons_append]
      split <;> rfl

theorem isLetters_with : IsLetters (keyword "with") := by decide

theorem afterOpening?_halts : Halts afterOpening? ';' := by
  apply (afterWord?_halts isLetters_with isWord_semicolon).bind
  intro u v
  simp only [dropWhile_append_stop_of_not isBlank_semicolon]
  exact after?_halts (by decide) (u.dropWhile isBlank) v

theorem afterPartition?_halts : Halts afterPartition? ';' :=
  ((afterWord?_halts isLetters_partition isWord_semicolon).bind
    (afterBlanks?_halts isBlank_semicolon)).bind afterOpening?_halts

theorem isLetters_begin : IsLetters (keyword "begin") := by decide

theorem afterKeys?_of_ne {c : Char} (hc : c ≠ ')') (s : List Char) : afterKeys? (c :: s) = none := by
  unfold afterKeys?
  split
  · rename_i heq
    exact absurd (List.cons.inj heq).1 hc
  · rfl

theorem afterKeys?_halts : Halts afterKeys? ';' := by
  intro u v
  cases u with
  | nil => rfl
  | cons c u =>
      by_cases hc : c = ')'
      · subst hc
        simp only [afterKeys?, List.cons_append]
        rw [dropWhile_append_stop_of_not isBlank_semicolon]
        exact afterWord?_halts isLetters_begin isWord_semicolon (u.dropWhile isBlank) v
      · rw [List.cons_append, afterKeys?_of_ne hc, afterKeys?_of_ne hc]
        rfl

theorem keys?_append {found : List Char × List Char} (h : keys? u = some found) (v : List Char) :
    keys? (u ++ ';' :: v) = some (found.1, found.2 ++ ';' :: v) := by
  induction u generalizing found with
  | nil => simp [keys?] at h
  | cons c u ih =>
      have hhalts := afterKeys?_halts (c :: u) v
      rw [List.cons_append] at hhalts ⊢
      rw [keys?] at h ⊢
      rw [hhalts]
      cases hclose : afterKeys? (c :: u) with
      | some rest =>
          rw [hclose] at h
          obtain rfl := Option.some.inj h
          rfl
      | none =>
          rw [hclose] at h
          obtain ⟨later, hlater, rfl⟩ := Option.map_eq_some_iff.mp h
          simp [ih hlater]

theorem keys?_eq_none (hs : ')' ∉ s) : keys? s = none := by
  induction s with
  | nil => rfl
  | cons c s ih =>
      rw [List.mem_cons, not_or] at hs
      rw [keys?, afterKeys?_of_ne fun h => hs.1 h.symm]
      simp [ih hs.2]

theorem isSome_keys?_of_append (hgap : ')' ∉ gap)
    (h : (keys? (u ++ ';' :: gap)).isSome = true) : (keys? u).isSome = true := by
  induction u with
  | nil =>
      have hnone : keys? (';' :: gap) = none := keys?_eq_none (by simp [hgap])
      simp [hnone] at h
  | cons c u ih =>
      have hhalts := afterKeys?_halts (c :: u) gap
      rw [List.cons_append] at hhalts h
      rw [keys?] at h ⊢
      rw [hhalts] at h
      cases hclose : afterKeys? (c :: u) with
      | some rest => rfl
      | none =>
          rw [hclose] at h
          simpa using ih (by simpa using h)

theorem HasClosedKeys.of_append (hgap : ')' ∉ gap) (h : HasClosedKeys (u ++ ';' :: gap)) :
    HasClosedKeys u := by
  rintro x w rfl hedge behind hbehind
  have hplace := h x (w ++ ';' :: gap) (by simp)
  have hhead := isWordAt_head?_append_stop isWord_semicolon w gap
  apply isSome_keys?_of_append hgap
  apply hplace
  · rwa [isEdge, hhead]
  · rw [afterPartition?_halts, hbehind]
    rfl

theorem partitionKeys?_bounded {more : Nat} {keys : List Char}
    (h : partitionKeys? none s = some (more, keys)) : more < s.length := by
  apply partitionKeys?_wordwise.lt_of_taken h
  rw [partitionKeys?_eq_ite] at h
  split at h
  · obtain ⟨behind, -, hkeys⟩ := Option.bind_eq_some_iff.mp h
    obtain ⟨found, -, hfound⟩ := Option.bind_eq_some_iff.mp hkeys
    obtain ⟨rfl, rfl⟩ := Prod.mk.inj (Option.some.inj hfound)
    exact ⟨found.2, rfl⟩
  · exact absurd h (by simp)

theorem HasClosedKeys.captures_append (h : HasClosedKeys s) (v : List Char) :
    captures partitionKeys? (s ++ ';' :: v) =
      captures partitionKeys? s ++ captures partitionKeys? v := by
  apply partitionKeys?_wordwise.captures_append_stop isWord_semicolon partitionKeys?_bounded
  intro x u hs hx
  have hhead := isWordAt_head?_append_stop isWord_semicolon u v
  rw [partitionKeys?_eq_ite, partitionKeys?_eq_ite, isEdge_of_border rfl, isEdge_of_border rfl,
    hhead, afterPartition?_halts]
  split
  · rename_i hu
    cases hbehind : afterPartition? u with
    | none => rfl
    | some behind =>
        have hclosed := h x u hs (by rwa [isEdge_of_border hx]) behind hbehind
        obtain ⟨found, hfound⟩ := Option.isSome_iff_exists.mp hclosed
        simp [keys?_append hfound, hfound, taken_append_append]
  · rfl

structure IsComplete (s : List Char) : Prop where
  commentFree : IsCommentFree s
  terminated : IsTerminated s
  closedKeys : HasClosedKeys s

instance (s : List Char) : Decidable (IsComplete s) :=
  decidable_of_iff (IsCommentFree s ∧ IsTerminated s ∧ HasClosedKeys s)
    ⟨fun ⟨hfree, hterminated, hclosed⟩ => ⟨hfree, hterminated, hclosed⟩,
      fun h => ⟨h.commentFree, h.terminated, h.closedKeys⟩⟩

namespace IsComplete

theorem stripComments_append (h : IsComplete s) (v : List Char) :
    stripComments (s ++ v) = s ++ stripComments v :=
  h.commentFree.stripComments_append h.terminated.endsOutside v

theorem stripComments_eq (h : IsComplete s) : stripComments s = s :=
  h.commentFree.stripComments_eq

theorem captures_partitionKeys?_append (h : IsComplete s) (v : List Char) :
    captures partitionKeys? (s ++ v) = captures partitionKeys? s ++ captures partitionKeys? v := by
  obtain ⟨u, gap, rfl, hgap⟩ := h.terminated.exists_append
  have hclosed : HasClosedKeys u := h.closedKeys.of_append fun hmem =>
    absurd (hgap _ hmem) (by decide)
  have hblanks := captures_blanks partitionKeys?_wordwise hgap
  have hnothing : captures partitionKeys? gap = [] := by
    rw [← List.append_nil gap, hblanks, captures_nil]
  rw [List.append_assoc, List.cons_append, hclosed.captures_append, hclosed.captures_append,
    hblanks, hnothing, List.append_nil]

theorem mem_referencedNames_append (h : IsComplete s) (name v : List Char) :
    name ∈ referencedNames (s ++ v) ↔ name ∈ referencedNames s ∨ name ∈ referencedNames v := by
  have hclauses := congrArg (List.flatMap clauseSources) (h.terminated.clauses_append v)
  rw [List.flatMap_append, List.flatMap_assoc, List.flatMap_assoc, List.flatMap_assoc] at hclauses
  unfold referencedNames
  rw [h.captures_partitionKeys?_append, hclauses, List.flatMap_append]
  simp only [List.mem_append]
  constructor
  · rintro ((hname | hname) | (hname | hname)) <;> simp [hname]
  · rintro ((hname | hname) | (hname | hname)) <;> simp [hname]

end IsComplete

section

variable {bodies : List String}

theorem stripComments_flatMap (hbodies : ∀ body ∈ bodies, IsComplete body.toList) :
    stripComments (bodies.flatMap String.toList) = bodies.flatMap String.toList := by
  induction bodies with
  | nil => rfl
  | cons body bodies ih =>
      have hrest := ih fun other hother => hbodies other (List.mem_cons_of_mem body hother)
      rw [List.flatMap_cons, (hbodies body List.mem_cons_self).stripComments_append, hrest]

theorem mem_referencedNames_flatMap (hbodies : ∀ body ∈ bodies, IsComplete body.toList)
    (name : List Char) :
    name ∈ referencedNames (bodies.flatMap String.toList) ↔
      ∃ body ∈ bodies, name ∈ referencedNames body.toList := by
  induction bodies with
  | nil => simp [referencedNames, statements, splitAt]
  | cons body bodies ih =>
      have hrest := ih fun other hother => hbodies other (List.mem_cons_of_mem body hother)
      rw [List.flatMap_cons, (hbodies body List.mem_cons_self).mem_referencedNames_append, hrest]
      simp

theorem mem_localNames_flatMap (hbodies : ∀ body ∈ bodies, IsComplete body.toList)
    (name : List Char) :
    name ∈ localNames (bodies.flatMap String.toList) ↔
      ∃ body ∈ bodies, name ∈ localNames body.toList := by
  induction bodies with
  | nil => simp
  | cons body bodies ih =>
      have hrest := ih fun other hother => hbodies other (List.mem_cons_of_mem body hother)
      rw [List.flatMap_cons, (hbodies body List.mem_cons_self).terminated.mem_localNames_append,
        hrest]
      simp

end

end EventOperator.Query
