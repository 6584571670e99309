import EventOperator.Proofs.Query.Clause
import EventOperator.Query.Source

/-!
Names that a query refers to. Each of them is a word, and the streams that a query reads are those of
them that it does not have of its own, each named once.
-/

namespace EventOperator.Text

variable {β : Type} {p : Pattern β} {b : β} {s w rest : List Char}

theorem exists_match_of_mem_captures (h : b ∈ captures p s) :
    ∃ u v more, s = u ++ v ∧ p u.getLast? v = some (more, b) := by
  have hfrom : ∀ v u skip, s = u ++ v → b ∈ capturesFrom p skip u.getLast? v →
      ∃ u v more, s = u ++ v ∧ p u.getLast? v = some (more, b) := by
    intro v
    induction v with
    | nil => simp [capturesFrom]
    | cons c v ih =>
        intro u skip hs hmem
        have hlater : ∀ skip, b ∈ capturesFrom p skip (some c) v →
            ∃ u v more, s = u ++ v ∧ p u.getLast? v = some (more, b) := by
          intro skip hmem
          apply ih (u ++ [c]) skip (by simp [hs])
          rwa [List.getLast?_concat]
        cases skip with
        | succ skip => exact hlater skip hmem
        | zero =>
            rw [capturesFrom] at hmem
            split at hmem
            · rename_i more capture hmatch
              rcases List.mem_cons.mp hmem with rfl | hmem
              · exact ⟨u, c :: v, more, hs, hmatch⟩
              · exact hlater more hmem
            · exact hlater 0 hmem
  exact hfrom s [] 0 rfl h

theorem isRun_of_wordRun? (h : wordRun? s = some (w, rest)) : IsRun w := by
  unfold wordRun? at h
  split at h
  · exact absurd h (by simp)
  · rename_i c run heq
    obtain ⟨rfl, -⟩ := Prod.mk.inj (Option.some.inj h)
    refine ⟨by simp, ?_⟩
    intro d hd
    rw [← heq] at hd
    exact List.all_eq_true.mp List.all_takeWhile d hd

end EventOperator.Text

namespace EventOperator.Query

open EventOperator.Text

variable {name s : List Char}

theorem isWord_of_isNameStart {c : Char} (h : isNameStart c = true) : isWord c = true := by
  simp only [isNameStart, Bool.or_eq_true, decide_eq_true_eq] at h
  rcases h with h | rfl
  · exact isWord_of_isAlphanum (by simp [Char.isAlphanum, h])
  · decide

theorem isRun_of_isNameStart {c : Char} (h : isNameStart c = true) (s : List Char) :
    IsRun (c :: s.takeWhile isWord) := by
  refine ⟨by simp, ?_⟩
  intro d hd
  rcases List.mem_cons.mp hd with rfl | hd
  · exact isWord_of_isNameStart h
  · exact List.all_eq_true.mp List.all_takeWhile d hd

theorem isRun_of_mem_clauseSources (h : name ∈ clauseSources s) : IsRun name := by
  obtain ⟨hcaptured, hsource⟩ := List.mem_filter.mp h
  obtain ⟨u, v, more, -, hmatch⟩ := exists_match_of_mem_captures hcaptured
  unfold name? at hmatch
  split at hmatch
  · split at hmatch
    · obtain ⟨-, rfl⟩ := Prod.mk.inj (Option.some.inj hmatch)
      simp [isSourceName] at hsource
    · exact absurd hmatch (by simp)
  · split at hmatch
    · rename_i hstart
      obtain ⟨-, rfl⟩ := Prod.mk.inj (Option.some.inj hmatch)
      exact isRun_of_isNameStart hstart _
    · exact absurd hmatch (by simp)
  · exact absurd hmatch (by simp)

theorem isRun_of_mem_keySources (h : name ∈ captures keySource? s) : IsRun name := by
  obtain ⟨u, v, more, -, hmatch⟩ := exists_match_of_mem_captures h
  obtain ⟨_, -, hmatch⟩ := Option.bind_eq_some_iff.mp hmatch
  obtain ⟨_, -, hmatch⟩ := Option.bind_eq_some_iff.mp hmatch
  obtain ⟨_, -, hmatch⟩ := Option.bind_eq_some_iff.mp hmatch
  obtain ⟨⟨w, rest⟩, hrun, hcapture⟩ := Option.bind_eq_some_iff.mp hmatch
  obtain ⟨-, rfl⟩ := Prod.mk.inj (Option.some.inj hcapture)
  exact isRun_of_wordRun? hrun

theorem isRun_of_mem_referencedNames (h : name ∈ referencedNames s) : IsRun name := by
  rcases List.mem_append.mp h with h | h
  · obtain ⟨keys, -, hname⟩ := List.mem_flatMap.mp h
    exact isRun_of_mem_keySources hname
  · obtain ⟨statement, -, h⟩ := List.mem_flatMap.mp h
    obtain ⟨clause, -, hname⟩ := List.mem_flatMap.mp h
    exact isRun_of_mem_clauseSources hname

def keyNames (s : List Char) : List (List Char) :=
  (captures partitionKeys? s).flatMap (captures keySource?)

def clauseNames (s : List Char) : List (List Char) :=
  (statements s).flatMap fun statement => (captures fromClause? statement).flatMap clauseSources

theorem referencedNames_eq (s : List Char) : referencedNames s = keyNames s ++ clauseNames s := rfl

theorem mem_distinct {α : Type} [DecidableEq α] {a : α} {list : List α} :
    a ∈ distinct list ↔ a ∈ list := by
  induction list with
  | nil => simp [distinct]
  | cons b rest ih =>
      by_cases hab : a = b
      · simp [distinct, hab]
      · simp [distinct, hab, ih]

theorem distinct_filter {α : Type} [DecidableEq α] (f : α → Bool) (list : List α) :
    distinct (list.filter f) = (distinct list).filter f := by
  induction list with
  | nil => rfl
  | cons a rest ih =>
      cases hf : f a with
      | true =>
          rw [List.filter_cons_of_pos hf, distinct, distinct, List.filter_cons_of_pos hf, ih,
            List.filter_filter, List.filter_filter]
          simp only [Bool.and_comm]
      | false =>
          rw [List.filter_cons_of_neg (by simp [hf]), distinct,
            List.filter_cons_of_neg (by simp [hf]), ih, List.filter_filter]
          apply List.filter_congr
          intro b _
          by_cases hb : b = a
          · simp [hb, hf]
          · simp [hb]

theorem distinct_nodup {α : Type} [DecidableEq α] (list : List α) : (distinct list).Nodup := by
  induction list with
  | nil => exact .nil
  | cons a rest ih =>
      rw [distinct, List.nodup_cons]
      exact ⟨by simp, ih.filter _⟩

theorem exists_of_sublist_distinct {α : Type} [DecidableEq α] {a b : α} {list : List α}
    (h : [a, b].Sublist (distinct list)) :
    a ≠ b ∧ ∃ front rest, list = front ++ a :: rest ∧ b ∉ front := by
  induction list with
  | nil => cases h
  | cons c list ih =>
      have hdrop : ∀ {d}, d ∈ (distinct list).filter (· ≠ c) → d ≠ c := fun hd => by
        simpa using (List.mem_filter.mp hd).2
      cases h with
      | cons _ h =>
          obtain ⟨hne, front, rest, rfl, hfront⟩ := ih (h.trans List.filter_sublist)
          refine ⟨hne, c :: front, rest, rfl, ?_⟩
          rw [List.mem_cons, not_or]
          exact ⟨hdrop (h.subset (by simp)), hfront⟩
      | cons_cons _ h =>
          exact ⟨(hdrop (h.subset List.mem_cons_self)).symm, [], list, rfl, List.not_mem_nil⟩

theorem distinct_eq_eraseDups {α : Type} [DecidableEq α] [BEq α] [LawfulBEq α] (list : List α) :
    distinct list = list.eraseDups := by
  match list with
  | [] => rfl
  | a :: rest =>
      have hrest := distinct_eq_eraseDups (rest.filter (· ≠ a))
      rw [distinct, ← distinct_filter, hrest, List.eraseDups_cons]
      have hsame : rest.filter (· ≠ a) = rest.filter (fun b => !b == a) := by
        apply List.filter_congr
        intro b _
        by_cases hb : b = a
        · simp [hb]
        · simp [hb]
      rw [hsame]
termination_by list.length
decreasing_by
  exact Nat.lt_succ_of_le (List.length_filter_le _ rest)

theorem mem_inputNames {text : List Char} :
    name ∈ inputNames text ↔
      name ∈ referencedNames (stripComments text) ∧ name ∉ localNames (stripComments text) := by
  simp [inputNames, mem_distinct]

theorem mem_inputStreams {stream body : String} :
    stream ∈ inputStreams body ↔ stream.toList ∈ inputNames body.toList := by
  unfold inputStreams
  rw [List.mem_map]
  constructor
  · rintro ⟨name, hname, rfl⟩
    simpa using hname
  · intro hname
    exact ⟨stream.toList, hname, by simp⟩

end EventOperator.Query
