import EventOperator.Proofs.Text.Place
import EventOperator.Proofs.Words

/-!
Where a query names its sources. Each name comes with the places of its letters in the text of the
query, whatever has been taken out on the way to it.
-/

namespace EventOperator.Text

variable {β : Type} {c : Char} {s u rest : List Char} {first second : Reader}

theorem take_of_taken {more : Nat} {b b' : β} (htaken : taken s rest b = (more, b'))
    (hs : s = u ++ rest) (hu : u ≠ []) : s.take (more + 1) = u := by
  have hpos := List.length_pos_iff.mpr hu
  rw [hs, taken_append] at htaken
  obtain ⟨rfl, -⟩ := Prod.mk.inj htaken
  rw [Nat.sub_add_cancel hpos, hs, List.take_left]

/-- A reader that reads no such character. -/
def Avoids (read : Reader) (c : Char) : Prop :=
  ∀ ⦃s rest⦄, read s = some rest → ∃ u, s = u ++ rest ∧ c ∉ u

theorem Avoids.kleisli (hfirst : Avoids first c) (hsecond : Avoids second c) :
    Avoids (first >=> second) c := by
  intro s rest h
  obtain ⟨mid, hmid, hrest⟩ := kleisli_eq_some h
  obtain ⟨u, rfl, hu⟩ := hfirst hmid
  obtain ⟨v, rfl, hv⟩ := hsecond hrest
  exact ⟨u ++ v, (List.append_assoc u v rest).symm, by simp [hu, hv]⟩

theorem avoids_afterWord? {word : List Char} (hletters : IsLetters word) (hc : isWord c = false) :
    Avoids (afterWord? word) c := by
  intro s rest h
  obtain ⟨u, rfl, hspells⟩ := exists_spelling h
  refine ⟨u, rfl, fun hin => ?_⟩
  have hword := (hspells.isRun hletters).2 c hin
  rw [hc] at hword
  exact Bool.noConfusion hword

theorem avoids_past? {f : Char → Bool} (hc : f c = false) : Avoids (past? f) c := by
  intro s rest h
  obtain rfl := Option.some.inj h
  refine ⟨s.takeWhile f, List.takeWhile_append_dropWhile.symm, fun hin => ?_⟩
  have hf := List.all_eq_true.mp List.all_takeWhile c hin
  rw [hc] at hf
  exact Bool.noConfusion hf

theorem avoids_afterBlanks? (hc : isBlank c = false) : Avoids afterBlanks? c := by
  intro s rest h
  cases s with
  | nil => cases h
  | cons d s =>
      rw [afterBlanks?] at h
      split at h
      · rename_i hd
        obtain ⟨u, heq, hu⟩ := avoids_past? hc h
        refine ⟨d :: u, congrArg (d :: ·) heq, ?_⟩
        rw [List.mem_cons, not_or]
        exact ⟨(ne_of_holds hd hc).symm, hu⟩
      · cases h

end EventOperator.Text

namespace EventOperator.Query

open EventOperator.Text

variable {s keys behind rest name : List Char} {before : Option Char} {more : Nat}

theorem fromClause?_captures_end {clause : List Char}
    (h : fromClause? before s = some (more, clause)) : clause <:+ s.take (more + 1) := by
  obtain ⟨rest, hrest, hfound⟩ := Option.bind_eq_some_iff.mp h
  obtain ⟨-, hword, -⟩ := (afterWholeWord?_eq_some_iff isLetters_from).mp hrest
  obtain ⟨w, rfl, hspells⟩ := exists_spelling hword
  have htaken := Option.some.inj hfound
  obtain ⟨-, rfl⟩ := Prod.mk.inj htaken
  rw [drop_upToWord] at htaken
  rw [take_of_taken htaken (by rw [List.append_assoc, upToWord_append_fromWord])
    (List.append_ne_nil_of_left_ne_nil (hspells.isRun isLetters_from).1 _)]
  exact List.suffix_append w _

theorem keySource?_captures_end (h : keySource? before s = some (more, name)) :
    name <:+ s.take (more + 1) := by
  obtain ⟨_, -, h⟩ := Option.bind_eq_some_iff.mp h
  obtain ⟨mid, hword, h⟩ := Option.bind_eq_some_iff.mp h
  obtain ⟨rest, hblanks, h⟩ := Option.bind_eq_some_iff.mp h
  obtain ⟨⟨w, behind⟩, hrun, hfound⟩ := Option.bind_eq_some_iff.mp h
  have htaken := Option.some.inj hfound
  obtain ⟨-, rfl⟩ := Prod.mk.inj htaken
  obtain ⟨rfl, hw, -⟩ := eq_append_of_wordRun? hrun
  obtain ⟨u, rfl⟩ := (shrinks_afterBlanks? hblanks).trans (shrinks_afterWord? hword)
  rw [take_of_taken htaken (List.append_assoc u w behind).symm
    (List.append_ne_nil_of_right_ne_nil u hw.1)]
  exact List.suffix_append u w

theorem name?_captures_all (h : name? before s = some (more, name)) : s.take (more + 1) = name := by
  have hrun : ∀ c rest, (c :: rest.takeWhile isWord) ++ rest.dropWhile isWord = c :: rest :=
    fun c rest => congrArg (c :: ·) List.takeWhile_append_dropWhile
  unfold name? at h
  split at h
  · split at h
    · have htaken := Option.some.inj h
      obtain ⟨-, rfl⟩ := Prod.mk.inj htaken
      exact take_of_taken htaken (congrArg ('#' :: ·) (hrun _ _).symm) (List.cons_ne_nil _ _)
    · cases h
  · split at h
    · have htaken := Option.some.inj h
      obtain ⟨-, rfl⟩ := Prod.mk.inj htaken
      exact take_of_taken htaken (hrun _ _).symm (List.cons_ne_nil _ _)
    · cases h
  · cases h

theorem exists_of_partitionEnd? (h : partitionEnd? s = some rest) :
    ∃ u, s = u ++ '(' :: rest ∧ '(' ∉ u := by
  have heq : partitionEnd? = (afterWord? (keyword "partition") >=> afterBlanks? >=>
      afterWord? (keyword "with") >=> past? isBlank) >=> after? '(' := by
    simp only [← kleisli_assoc]
    rfl
  rw [heq] at h
  obtain ⟨mid, hmid, hlast⟩ := kleisli_eq_some h
  have havoids : Avoids (afterWord? (keyword "partition") >=> afterBlanks? >=>
      afterWord? (keyword "with") >=> past? isBlank) '(' :=
    (avoids_afterWord? isLetters_partition (by decide)).kleisli
      ((avoids_afterBlanks? (by decide)).kleisli
        ((avoids_afterWord? isLetters_with (by decide)).kleisli (avoids_past? (by decide))))
  obtain ⟨u, rfl, hu⟩ := havoids hmid
  cases mid with
  | nil => cases hlast
  | cons c mid =>
      rw [after?] at hlast
      split at hlast
      · rename_i hc
        obtain rfl := Option.some.inj hlast
        exact ⟨u, by rw [hc], hu⟩
      · cases hlast

theorem partitionKeys?_captures_behind (h : partitionKeys? before s = some (more, keys)) :
    ∃ u, '(' ∉ u ∧ u ++ '(' :: keys <+: s.take (more + 1) := by
  rw [partitionKeys?_eq_ite] at h
  split at h
  · obtain ⟨rest, hrest, h⟩ := Option.bind_eq_some_iff.mp h
    obtain ⟨⟨keys', behind⟩, hkeys, hfound⟩ := Option.bind_eq_some_iff.mp h
    have htaken := Option.some.inj hfound
    obtain ⟨-, rfl⟩ := Prod.mk.inj htaken
    obtain ⟨v, rfl⟩ := exists_of_keys? hkeys
    obtain ⟨u, rfl, hu⟩ := exists_of_partitionEnd? (afterPartition?_eq ▸ hrest)
    refine ⟨u, hu, ?_⟩
    rw [take_of_taken (u := (u ++ '(' :: keys') ++ ')' :: v) htaken (by simp) (by simp)]
    exact List.prefix_append _ (')' :: v)
  · cases h

def bareLetters (t : List Letter) : List Letter :=
  (filter? :: noise).foldl (fun t p => blanked p t) t

def sourceParts (t : List Letter) : List (List Letter) :=
  (captured atEndOfMatch name? (bareLetters t)).filter fun w => isSourceName (chars w)

def clauseParts (t : List Letter) : List (List Letter) :=
  (divided ';' t).flatMap fun statement =>
    (captured atEndOfMatch fromClause? statement).flatMap sourceParts

def keyParts (t : List Letter) : List (List Letter) :=
  (captured (behindFirst '(') partitionKeys? t).flatMap (captured atEndOfMatch keySource?)

variable {t : List Letter} {patterns : List (Pattern Unit)}

theorem chars_foldl_blanked (patterns : List (Pattern Unit)) (t : List Letter) :
    chars (patterns.foldl (fun t p => blanked p t) t) =
      patterns.foldl (fun s p => blankOut p s) (chars t) := by
  induction patterns generalizing t with
  | nil => rfl
  | cons p patterns ih => rw [List.foldl_cons, ih, chars_blanked, List.foldl_cons]

theorem isPart_foldl_blanked (patterns : List (Pattern Unit)) (t : List Letter) :
    IsPart (patterns.foldl (fun t p => blanked p t) t) t := by
  induction patterns generalizing t with
  | nil => exact isPart_of_isInfix List.infix_rfl
  | cons p patterns ih => exact (ih (blanked p t)).trans (isPart_blanked p t)

theorem chars_bareLetters (t : List Letter) : chars (bareLetters t) = bareClause (chars t) := by
  rw [bareLetters, chars_foldl_blanked, List.foldl_cons, bareClause_eq]

theorem map_chars_sourceParts (t : List Letter) :
    (sourceParts t).map chars = clauseSources (chars t) := by
  have hfinds : atEndOfMatch.Finds name? := atEndOfMatch_finds fun h =>
    name?_captures_all h ▸ List.suffix_rfl
  rw [clauseSources, ← chars_bareLetters, ← map_chars_captured hfinds, List.filter_map]
  rfl

theorem map_chars_flatMap {f : List Letter → List (List Letter)} {g : List Char → List (List Char)}
    (h : ∀ t, (f t).map chars = g (chars t)) (ts : List (List Letter)) :
    (ts.flatMap f).map chars = (ts.map chars).flatMap g := by
  rw [List.map_flatMap, List.flatMap_map]
  simp only [h]

theorem map_chars_clauseParts (t : List Letter) :
    (clauseParts t).map chars = clauseNames (chars t) := by
  have hclauses : atEndOfMatch.Finds fromClause? := atEndOfMatch_finds fromClause?_captures_end
  rw [clauseNames, statements, ← map_chars_divided]
  apply map_chars_flatMap
  intro statement
  rw [← map_chars_captured hclauses]
  exact map_chars_flatMap map_chars_sourceParts _

theorem map_chars_keyParts (t : List Letter) : (keyParts t).map chars = keyNames (chars t) := by
  have hkeys : (behindFirst '(').Finds partitionKeys? :=
    behindFirst_finds partitionKeys?_captures_behind
  have hsources : atEndOfMatch.Finds keySource? := atEndOfMatch_finds keySource?_captures_end
  rw [keyNames, ← map_chars_captured hkeys]
  exact map_chars_flatMap (map_chars_captured hsources) _

theorem areParts_sourceParts (t : List Letter) : AreParts (sourceParts t) t :=
  ((areParts_captured _ _ _).of_sublist List.filter_sublist).trans (isPart_foldl_blanked _ t)

theorem areParts_clauseParts (t : List Letter) : AreParts (clauseParts t) t :=
  (areParts_divided ';' t).flatMap fun _ _ =>
    (areParts_captured _ _ _).flatMap fun clause _ => areParts_sourceParts clause

theorem areParts_keyParts (t : List Letter) : AreParts (keyParts t) t :=
  (areParts_captured _ _ t).flatMap fun _ _ => areParts_captured _ _ _

end EventOperator.Query
