import EventOperator.Proofs.Query.Comment
import EventOperator.Query.Source

/-!
Comments and what a query reads. A comment is as good as a blank, whatever it says and whatever
comes behind it, and once comments have been taken out there are none left.
-/

namespace EventOperator

open EventOperator.Text

namespace Query

variable {c d : Char} {s u v : List Char}

theorem afterClose?_append (hu : ¬ ['*', '/'] <:+: u) (v : List Char) :
    afterClose? (u ++ '*' :: '/' :: v) = some v := by
  induction u with
  | nil => rfl
  | cons c u ih =>
      have hrest := ih fun h => hu (h.trans (List.suffix_cons c u).isInfix)
      rw [List.cons_append, afterClose?]
      · exact hrest
      · intro rest hc heq
        cases u with
        | nil => exact absurd (List.cons.inj heq).1 (by decide)
        | cons d u =>
            rw [hc, (List.cons.inj heq).1] at hu
            exact hu ⟨[], u, rfl⟩

theorem exists_close_of_afterClose? (h : afterClose? s = some v) :
    ∃ u, s = u ++ '*' :: '/' :: v := by
  fun_induction afterClose? s with
  | case1 s =>
      obtain rfl := Option.some.inj h
      exact ⟨[], rfl⟩
  | case2 c s _ ih =>
      obtain ⟨u, rfl⟩ := ih h
      exact ⟨c :: u, rfl⟩
  | case3 => cases h

theorem exists_of_afterClose? (h : afterClose? s = some v) : ∃ u, s = u ++ v := by
  obtain ⟨u, rfl⟩ := exists_close_of_afterClose? h
  exact ⟨u ++ ['*', '/'], by simp⟩

theorem afterClose?_eq_none_iff : afterClose? s = none ↔ ¬ ['*', '/'] <:+: s := by
  fun_induction afterClose? s with
  | case1 s => exact iff_of_false (by simp) (not_not_intro ⟨[], s, rfl⟩)
  | case2 c s hc ih =>
      rw [ih, List.infix_cons_iff, not_or]
      refine (and_iff_right ?_).symm
      rintro ⟨rest, heq⟩
      obtain ⟨rfl, rfl⟩ := List.cons.inj heq
      exact hc rest rfl rfl
  | case3 => simp

theorem comment?_eq_none_iff :
    comment? none s = none ↔
      ¬ ['-', '-'] <+: s ∧ ∀ v, s = '/' :: '*' :: v → ¬ ['*', '/'] <:+: v := by
  unfold comment?
  split
  · rename_i rest
    exact iff_of_false (by simp) fun h => h.1 ⟨rest, rfl⟩
  · rename_i rest
    rw [Option.map_eq_none_iff, afterClose?_eq_none_iff]
    constructor
    · intro h
      refine ⟨by simp, ?_⟩
      rintro v heq
      obtain rfl : rest = v := by simpa using heq
      exact h
    · exact fun h => h.2 rest rfl
  · rename_i hline hblock
    refine iff_of_true rfl ⟨?_, fun v heq => absurd heq (hblock v)⟩
    rintro ⟨rest, rfl⟩
    exact hline rest rfl

theorem comment?_eq_none_of_pair (hline : ¬ (c = '-' ∧ d = '-'))
    (hblock : ¬ (c = '/' ∧ d = '*')) : comment? none (c :: d :: s) = none := by
  rw [comment?_eq_none_iff]
  constructor
  · rintro ⟨rest, heq⟩
    obtain ⟨rfl, htail⟩ := List.cons.inj heq
    exact hline ⟨rfl, (List.cons.inj htail).1.symm⟩
  · intro v heq
    obtain ⟨rfl, htail⟩ := List.cons.inj heq
    exact absurd ⟨rfl, (List.cons.inj htail).1⟩ hblock

theorem comment?_takes_line (hu : '\n' ∉ u) (v : List Char) :
    Takes comment? ('-' :: '-' :: u) ('\n' :: v) () := by
  refine ⟨by simp, ?_⟩
  have hend : (u ++ '\n' :: v).dropWhile (· ≠ '\n') = '\n' :: v := by
    rw [List.dropWhile_append_of_pos]
    · simp
    · intro c hc
      simpa using fun h : c = '\n' => hu (h ▸ hc)
  rw [List.cons_append, List.cons_append, comment?, hend]

theorem comment?_takes_block (hu : ¬ ['*', '/'] <:+: u) (v : List Char) :
    Takes comment? ('/' :: '*' :: (u ++ ['*', '/'])) v () := by
  refine ⟨by simp, ?_⟩
  have hclose : afterClose? (u ++ ['*', '/'] ++ v) = some v := by
    rw [List.append_assoc]
    exact afterClose?_append hu v
  rw [List.cons_append, List.cons_append, comment?, hclose, Option.map_some]

theorem exists_takes_comment? (h : comment? none s ≠ none) :
    ∃ u v, s = u ++ v ∧ Takes comment? u v () := by
  have hmatch : ∃ u v, s = u ++ v ∧ u ≠ [] ∧ comment? none s = some (taken s v ()) := by
    unfold comment? at h ⊢
    split at h
    · rename_i rest
      refine ⟨'-' :: '-' :: rest.takeWhile (· ≠ '\n'), rest.dropWhile (· ≠ '\n'), ?_, by simp, rfl⟩
      simp
    · rename_i rest
      obtain ⟨v, hv⟩ := Option.ne_none_iff_exists'.mp (mt Option.map_eq_none_iff.mpr h)
      obtain ⟨u, rfl⟩ := exists_of_afterClose? hv
      exact ⟨'/' :: '*' :: u, v, rfl, by simp, by rw [hv]; rfl⟩
    · exact absurd rfl h
  obtain ⟨u, v, rfl, hne, hfound⟩ := hmatch
  exact ⟨u, v, rfl, hne, hfound⟩

/-- A text is nothing, a character at which no comment begins and the rest, or a comment and the
rest. -/
theorem comment_induction {motive : List Char → Prop} (nil : motive [])
    (other : ∀ c s, comment? none (c :: s) = none → motive s → motive (c :: s))
    (comment : ∀ u v, Takes comment? u v () → motive v → motive (u ++ v))
    (s : List Char) : motive s :=
  match s with
  | [] => nil
  | c :: s => by
      by_cases hc : comment? none (c :: s) = none
      · exact other c s hc (comment_induction nil other comment s)
      · obtain ⟨u, v, heq, htakes⟩ := exists_takes_comment? hc
        have hshorter : v.length < (c :: s).length := by
          rw [heq, List.length_append]
          have := List.length_pos_iff.mpr htakes.1
          omega
        rw [heq]
        exact comment u v htakes (comment_induction nil other comment v)
termination_by s.length
decreasing_by
  · exact Nat.lt_succ_self s.length
  · exact hshorter

theorem stripComments_cons (hc : comment? none (c :: s) = none) :
    stripComments (c :: s) = c :: stripComments s :=
  blankOut_of_scan_inl (u := [c]) (comment?_blind.scan_cons hc)

theorem stripComments_comment (h : Takes comment? u v ()) :
    stripComments (u ++ v) = ' ' :: stripComments v :=
  blankOut_of_scan_inr (scan_take h (comment?_blind _ _))

theorem IsCommentFree.stripComments_append_cons (hu : IsCommentFree u)
    (hline : u.getLast? = some '-' → c ≠ '-') (hblock : c ≠ '*') (v : List Char) :
    stripComments (u ++ c :: v) = u ++ stripComments (c :: v) := by
  induction u with
  | nil => rfl
  | cons d u ih =>
      have hnone : comment? none (d :: (u ++ c :: v)) = none := by
        cases u with
        | nil =>
            have hends : d = '-' → c ≠ '-' := fun hd => hline (by simp [hd])
            exact comment?_eq_none_of_pair (fun h => hends h.1 h.2) fun h => hblock h.2
        | cons e u =>
            apply comment?_eq_none_of_pair
            · rintro ⟨rfl, rfl⟩
              exact hu.1 ⟨[], u, rfl⟩
            · rintro ⟨rfl, rfl⟩
              exact hu.2 ⟨[], u, rfl⟩
      have hrest : u.getLast? = some '-' → c ≠ '-' := by
        intro h
        apply hline
        rw [List.getLast?_cons, h, Option.getD_some]
      rw [List.cons_append, stripComments_cons hnone, ih hu.tail hrest, List.cons_append]

theorem head?_of_head?_stripComments (h : (stripComments s).head? = some c) (hc : c ≠ ' ') :
    s.head? = some c := by
  cases s with
  | nil => exact h
  | cons d s =>
      rw [stripComments, blankOut, blankFrom] at h
      split at h
      · exact absurd (Option.some.inj h).symm hc
      · exact h

theorem closes_of_stripComments (h : ['*', '/'] <:+: stripComments s) : ['*', '/'] <:+: s := by
  induction s using comment_induction with
  | nil => exact h
  | other c s hc ih =>
      rw [stripComments_cons hc, List.infix_cons_iff] at h
      rcases h with ⟨rest, heq⟩ | hinside
      · obtain ⟨rfl, htail⟩ := List.cons.inj heq
        have hhead : s.head? = some '/' :=
          head?_of_head?_stripComments (by rw [← htail]; rfl) (by decide)
        obtain ⟨rest, rfl⟩ := List.head?_eq_some_iff.mp hhead
        exact ⟨[], rest, rfl⟩
      · exact (ih hinside).trans (List.suffix_cons c s).isInfix
  | comment u v htakes ih =>
      rw [stripComments_comment htakes, List.infix_cons_iff] at h
      rcases h with ⟨rest, heq⟩ | hinside
      · exact absurd (List.cons.inj heq).1 (by decide)
      · exact (ih hinside).trans (List.suffix_append u v).isInfix

/-! Texts that hold no comment. A block may have been opened in them, but not closed. -/

structure HasNoComment (s : List Char) : Prop where
  line : ¬ ['-', '-'] <:+: s
  block : ∀ u v, s = u ++ '/' :: '*' :: v → ¬ ['*', '/'] <:+: v

theorem hasNoComment_nil : HasNoComment [] where
  line := by simp
  block := by simp

theorem hasNoComment_cons :
    HasNoComment (c :: s) ↔ comment? none (c :: s) = none ∧ HasNoComment s := by
  rw [comment?_eq_none_iff]
  constructor
  · intro h
    refine ⟨⟨fun hprefix => h.line hprefix.isInfix, fun v => h.block [] v⟩, ?_, ?_⟩
    · exact fun hinside => h.line (hinside.trans (List.suffix_cons c s).isInfix)
    · rintro u v rfl
      exact h.block (c :: u) v rfl
  · rintro ⟨⟨hline, hblock⟩, hs⟩
    refine ⟨?_, ?_⟩
    · rw [List.infix_cons_iff]
      exact fun h => h.elim hline hs.line
    · intro u v heq
      cases u with
      | nil => exact hblock v heq
      | cons d u => exact hs.block u v (List.cons.inj heq).2

theorem HasNoComment.stripComments_eq (h : HasNoComment s) : stripComments s = s := by
  induction s with
  | nil => rfl
  | cons c s ih =>
      obtain ⟨hc, hs⟩ := hasNoComment_cons.mp h
      rw [stripComments_cons hc, ih hs]

theorem comment?_cons_stripComments (h : comment? none (c :: s) = none) :
    comment? none (c :: stripComments s) = none := by
  rw [comment?_eq_none_iff] at h ⊢
  obtain ⟨hline, hblock⟩ := h
  constructor
  · rintro ⟨rest, heq⟩
    obtain ⟨rfl, htail⟩ := List.cons.inj heq
    have hhead : s.head? = some '-' :=
      head?_of_head?_stripComments (by rw [← htail]; rfl) (by decide)
    obtain ⟨rest, rfl⟩ := List.head?_eq_some_iff.mp hhead
    exact hline ⟨rest, rfl⟩
  · intro v heq
    obtain ⟨rfl, htail⟩ := List.cons.inj heq
    have hhead : s.head? = some '*' :=
      head?_of_head?_stripComments (by rw [htail]; rfl) (by decide)
    obtain ⟨rest, rfl⟩ := List.head?_eq_some_iff.mp hhead
    rw [stripComments_cons (comment?_eq_none (by decide) (by decide) rest)] at htail
    obtain rfl : stripComments rest = v := (List.cons.inj htail).2
    exact fun hclose => hblock rest rfl (closes_of_stripComments hclose)

theorem hasNoComment_stripComments (s : List Char) : HasNoComment (stripComments s) := by
  induction s using comment_induction with
  | nil => exact hasNoComment_nil
  | other c s hc ih =>
      rw [stripComments_cons hc, hasNoComment_cons]
      exact ⟨comment?_cons_stripComments hc, ih⟩
  | comment u v htakes ih =>
      rw [stripComments_comment htakes, hasNoComment_cons]
      exact ⟨comment?_eq_none (by decide) (by decide) _, ih⟩

theorem stripComments_stripComments (s : List Char) :
    stripComments (stripComments s) = stripComments s :=
  (hasNoComment_stripComments s).stripComments_eq

theorem stripComments_block (hu : IsCommentFree u) (hs : ¬ ['*', '/'] <:+: s) (v : List Char) :
    stripComments (u ++ '/' :: '*' :: (s ++ '*' :: '/' :: v)) = stripComments (u ++ ' ' :: v) := by
  have hcomment := stripComments_comment (comment?_takes_block hs v)
  have hblank := stripComments_cons (comment?_eq_none (c := ' ') (by decide) (by decide) v)
  rw [hu.stripComments_append_cons (fun _ => by decide) (by decide),
    hu.stripComments_append_cons (fun _ => by decide) (by decide), hblank, ← hcomment]
  simp

theorem stripComments_line (hu : IsCommentFree u) (hend : u.getLast? ≠ some '-') (hs : '\n' ∉ s)
    (v : List Char) :
    stripComments (u ++ '-' :: '-' :: (s ++ '\n' :: v)) =
      stripComments (u ++ ' ' :: '\n' :: v) := by
  have hcomment := stripComments_comment (comment?_takes_line hs v)
  have hblank :=
    stripComments_cons (comment?_eq_none (c := ' ') (by decide) (by decide) ('\n' :: v))
  rw [hu.stripComments_append_cons (fun h => absurd h hend) (by decide),
    hu.stripComments_append_cons (fun _ => by decide) (by decide), hblank, ← hcomment]
  simp

theorem inputStreams_of_stripComments {text other : String}
    (h : stripComments text.toList = stripComments other.toList) :
    inputStreams text = inputStreams other := by
  rw [inputStreams, inputStreams, inputNames, inputNames, h]

/-- A comment behind a text without comments is as good as a blank: a block up to its first end,
whatever else it says, and the rest of a line, if the text before does not end with a dash. A text
without its comments holds no comment any more, so it reads what the text reads. -/
theorem inputStreams_comments :
    (∀ front comment behind : String, IsCommentFree front.toList →
        ¬ ['*', '/'] <:+: comment.toList →
        inputStreams (front ++ "/*" ++ comment ++ "*/" ++ behind) =
          inputStreams (front ++ " " ++ behind)) ∧
      (∀ front comment behind : String, IsCommentFree front.toList →
        front.toList.getLast? ≠ some '-' → '\n' ∉ comment.toList →
        inputStreams (front ++ "--" ++ comment ++ "\n" ++ behind) =
          inputStreams (front ++ " " ++ "\n" ++ behind)) ∧
      ∀ body : String,
        HasNoComment (stripComments body.toList) ∧
          stripComments (stripComments body.toList) = stripComments body.toList ∧
          inputStreams (String.ofList (stripComments body.toList)) = inputStreams body := by
  refine ⟨?_, ?_, ?_⟩
  · intro front comment behind hfront hcomment
    apply inputStreams_of_stripComments
    simpa using stripComments_block hfront hcomment behind.toList
  · intro front comment behind hfront hend hcomment
    apply inputStreams_of_stripComments
    simpa using stripComments_line hfront hend hcomment behind.toList
  · intro body
    have hagain := stripComments_stripComments body.toList
    refine ⟨hasNoComment_stripComments _, hagain, ?_⟩
    apply inputStreams_of_stripComments
    rwa [String.toList_ofList]

theorem inputStreams_comments_market :
    inputStreams ("from Ticks /" ++ "/*" ++ "/ join News -- *" ++ "*/" ++
        " select symbol insert into Rises;") = ["Ticks"] ∧
      inputStreams ("from every Ticks -> " ++ "--" ++ "- News /*" ++ "\n" ++
        "Quotes select symbol insert into Rises; */") = ["Ticks", "Quotes"] := by
  obtain ⟨hblock, hline, -⟩ := inputStreams_comments
  constructor
  · exact (hblock _ _ _ (by decide +kernel) (by decide +kernel)).trans (by decide +kernel)
  · exact (hline _ _ _ (by decide +kernel) (by decide +kernel) (by decide +kernel)).trans
      (by decide +kernel)

end Query

end EventOperator
