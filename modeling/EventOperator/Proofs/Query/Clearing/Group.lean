import EventOperator.Proofs.Query.Noise

/-!
Filters, handlers and parentheses are taken out. A handler is told from an inner stream by the
parenthesis behind its name.
-/

namespace EventOperator.Query

open EventOperator.Text

variable {c : Char} {word w s t u v gap : List Char} {token : Token} {tokens : List Token}
  {text : Plain} {used : Nat} {phrase : Phrase} {rest phrases : List Phrase}

theorem Written.exists_singleton (h : Written [.plain text] u) :
    ∃ gap gap', u = gap ++ (text.chars ++ gap') ∧ (∀ c ∈ gap, isBlank c = true) ∧
      ∀ c ∈ gap', isBlank c = true := by
  obtain ⟨gap, t, gap', rfl, hgap, rfl, -, hgap'⟩ := h.exists_append
  exact ⟨gap, gap', rfl, hgap, hgap'.blanks_of_nil⟩

theorem filter?_beginsWith : filter?.BeginsWith '[' := fun _ s hc => filter?_eq_none hc s

theorem filter?_skipsBlanks : filter?.SkipsBlanks :=
  filter?_beginsWith.skipsBlanks filter?_blind (by decide)

theorem filter?_takes (f : Filter) (v : List Char) : Takes filter? f.chars v () := by
  have hmatching : afterMatching? 0 (f.content ++ ']' :: v) = some v :=
    afterMatching?_eq_some_iff.mpr ⟨f.content, rfl, f.balanced⟩
  refine ⟨by simp [Filter.chars], ?_⟩
  simp [Filter.chars, filter?, hmatching]

theorem not_mem_mark (hc : c ∉ ['-', '>', ',', '+', '*', '?']) (m : Mark) : c ∉ m.chars := by
  intro hmem
  apply hc
  cases m <;> simp_all [Mark.chars]

theorem clears_filter? : Clears filter? 0 phrase rest := by
  have hother : phrase.left 1 = phrase.left 0 → ¬ phrase.MayHold '[' →
      Clears filter? 0 phrase rest := fun hsame hfree =>
    clears_of_char filter?_blind (by decide) (by decide) filter?_beginsWith hsame fun _ => hfree
  cases phrase with
  | filter f =>
      apply clears_of_match filter?_skipsBlanks rfl
      intro u v hu hap
      obtain ⟨gap, gap', rfl, hgap, hgap'⟩ := hu.exists_singleton
      exact ⟨gap, f.chars, gap', rfl, hgap, hgap', filter?_takes f _⟩
  | handler h => exact hother rfl fun hmay => hmay.1 rfl
  | condition d => exact hother rfl fun hmay => hmay.2.1 rfl
  | mark m => exact hother rfl (not_mem_mark (by decide) m)
  | source s => exact hother rfl (by cases s <;> simp [Phrase.MayHold])
  | _ => exact hother rfl (by simp [Phrase.MayHold])

theorem handler?_blind : handler?.Blind := fun _ _ => rfl

theorem handler?_beginsWith : handler?.BeginsWith '#' := by
  intro c s hc
  unfold handler?
  split
  · rename_i heq
    exact absurd (List.cons.inj heq).1 hc
  · rfl

theorem handler?_cons (c : Char) (s : List Char) :
    handler? none ('#' :: c :: s) =
      if isHandlerChar c = true then
        (after? '(' (((c :: s).dropWhile isHandlerChar).dropWhile isBlank)).bind fun arguments =>
          (after? ')' (arguments.dropWhile (· ≠ ')'))).bind fun behind =>
            some (taken ('#' :: c :: s) behind ())
      else none :=
  guard_bind _ _

theorem handler?_skipsBlanks : handler?.SkipsBlanks :=
  handler?_beginsWith.skipsBlanks handler?_blind (by decide)

theorem handler?_takes_call {name inside : List Char}
    (hname : name ≠ [] ∧ ∀ c ∈ name, isHandlerChar c = true) (hinside : ')' ∉ inside)
    (v : List Char) : Takes handler? ('#' :: (name ++ '(' :: (inside ++ [')']))) v () := by
  obtain ⟨hne, hall⟩ := hname
  have hbehind : (name ++ '(' :: (inside ++ ')' :: v)).dropWhile isHandlerChar =
      '(' :: (inside ++ ')' :: v) :=
    dropWhile_append_stop hall (by simp; decide)
  have harguments : (inside ++ ')' :: v).dropWhile (fun c => !decide (c = ')')) = ')' :: v :=
    dropWhile_append_stop
      (fun c hc => by simpa using fun heq : c = ')' => hinside (heq ▸ hc)) (by simp)
  have hparen : isBlank '(' = false := by decide
  refine ⟨by simp, ?_⟩
  cases name with
  | nil => exact absurd rfl hne
  | cons c name =>
      have hc : isHandlerChar c = true := hall c List.mem_cons_self
      simp only [List.cons_append] at hbehind
      simp [handler?_cons, hc, hbehind, hparen, after?, harguments]

theorem handler?_takes (h : Handler) (v : List Char) : Takes handler? h.chars v () :=
  handler?_takes_call h.isHandler (fun hmem => (h.free ')' hmem).2.1 rfl) v

/-- What may stand at the front of a phrase that opens no parenthesis. -/
def IsStart (c : Char) : Prop :=
  isBlank c = false ∧ c ≠ '(' ∧ c ≠ ':' ∧ c ≠ '.' ∧ c ≠ '='

instance (c : Char) : Decidable (IsStart c) := inferInstanceAs (Decidable (_ ∧ _))

theorem isStart_of_isWord (hc : isWord c = true) : IsStart c := by
  refine ⟨?_, ?_, ?_, ?_, ?_⟩
  · exact isBlank_of_isWord hc
  all_goals exact ne_of_holds hc (by decide)

def Token.Starts (token : Token) : Prop :=
  ∀ t, token.Spelled t → ∃ c s, t = c :: s ∧ IsStart c

theorem Token.starts_of_isRun (h : ∀ t, token.Spelled t → IsRun t) : token.Starts := by
  intro t ht
  obtain ⟨hne, hall⟩ := h t ht
  cases t with
  | nil => exact absurd rfl hne
  | cons c s => exact ⟨c, s, rfl, isStart_of_isWord (hall c List.mem_cons_self)⟩

theorem starts_keyword (word : List Char) (letters : IsLetters word) :
    (Token.keyword word letters).Starts :=
  Token.starts_of_isRun fun _ ht => isRun_of_toLower letters ht

theorem starts_name (name : Name) : (Token.plain name.plain).Starts :=
  Token.starts_of_isRun fun t ht => by
    obtain rfl : t = name.chars := ht
    exact name.isName.isRun

theorem starts_plain (h : ∃ c s, text.chars = c :: s ∧ IsStart c) : (Token.plain text).Starts := by
  intro t ht
  obtain rfl : t = text.chars := ht
  exact h

theorem Phrase.exists_starts (hne : phrase ≠ .opening) :
    ∃ token tail, phrase.tokens = token :: tail ∧ token.Starts := by
  have hsymbol : ∀ {c s}, IsStart c → ∃ d u, c :: s = d :: u ∧ IsStart d :=
    fun {c s} hc => ⟨c, s, rfl, hc⟩
  cases phrase with
  | word w h => exact ⟨_, _, rfl, starts_keyword _ _⟩
  | mark m =>
      refine ⟨_, _, rfl, starts_plain ?_⟩
      cases m <;> exact hsymbol (by decide)
  | source s =>
      cases s with
      | stream name => exact ⟨_, _, rfl, starts_name name⟩
      | inner name => exact ⟨_, _, rfl, starts_plain (hsymbol (by decide))⟩
  | filter f => exact ⟨_, _, rfl, starts_plain (hsymbol (by decide))⟩
  | handler h => exact ⟨_, _, rfl, starts_plain (hsymbol (by decide))⟩
  | opening => exact absurd rfl hne
  | closing => exact ⟨_, _, rfl, starts_plain (hsymbol (by decide))⟩
  | condition d => exact ⟨_, _, rfl, starts_keyword _ _⟩
  | timeBound n unit => exact ⟨_, _, rfl, starts_keyword _ _⟩
  | waiting n unit => exact ⟨_, _, rfl, starts_keyword _ _⟩
  | eventAlias a => exact ⟨_, _, rfl, starts_name a⟩
  | streamAlias a => exact ⟨_, _, rfl, starts_keyword _ _⟩
  | count b => exact ⟨_, _, rfl, starts_plain (hsymbol (by decide))⟩

theorem dropWhile_blanks (hgap : ∀ c ∈ gap, isBlank c = true) (v : List Char) :
    (gap ++ v).dropWhile isBlank = v.dropWhile isBlank :=
  List.dropWhile_append_of_pos hgap

theorem Phrase.ungrouped_ne_opening (hne : phrase ≠ .opening) : phrase.ungrouped ≠ .opening := by
  cases phrase with
  | condition d => exact fun h => nomatch h
  | _ => exact hne

theorem Phrase.exists_starts_left (hstage : used ≤ phrase.stage) (hne : phrase ≠ .opening) :
    ∃ token tail, phrase.left used = token :: tail ∧ token.Starts := by
  rw [left, if_neg (Nat.not_lt.mpr hstage)]
  split
  · exact exists_starts hne
  · exact exists_starts (ungrouped_ne_opening hne)

theorem Token.Starts.isStart_of_written {tokens : List Token} (hstarts : token.Starts)
    (h : Written (token :: tokens) v) :
    ∀ c, (v.dropWhile isBlank).head? = some c → IsStart c := by
  obtain ⟨gap, t, s, rfl, hgap, ht, -, -⟩ := h.exists_append
  obtain ⟨d, u, rfl, hd⟩ := hstarts t ht
  intro c hc
  rw [dropWhile_blanks hgap, List.cons_append, List.dropWhile_cons, hd.1] at hc
  obtain rfl := Option.some.inj hc
  exact hd

/-- Behind a phrase that no parenthesis may follow, and everywhere once the parentheses are gone,
the text goes on with the start of a phrase. -/
theorem isStart_of_written {previous : Phrase} (hused : used ≤ 10)
    (hopen : 2 < used ∨ previous.admitsOpening = false)
    (hchain : (previous :: rest).IsChain Adjoins) (h : Written (remains used rest) v) :
    ∀ c, (v.dropWhile isBlank).head? = some c → IsStart c := by
  induction rest generalizing previous v with
  | nil =>
      have hnothing : v.dropWhile isBlank = [] := by
        rw [← List.append_nil v, dropWhile_blanks h.blanks_of_nil]
        rfl
      intro c hc
      rw [hnothing] at hc
      exact nomatch hc
  | cons phrase rest ih =>
      obtain ⟨hadjoins, hrest⟩ := List.isChain_cons_cons.mp hchain
      rw [remains_cons] at h
      cases Nat.lt_or_ge phrase.stage used with
      | inl hgone =>
          rw [Phrase.left_of_lt hgone, List.nil_append] at h
          apply ih _ hrest h
          cases hopen with
          | inl hlate => exact Or.inl hlate
          | inr hprevious =>
              cases phrase with
              | opening => simp [hadjoins.opening rfl] at hprevious
              | word w hw => exact absurd (Nat.lt_of_lt_of_le hgone hused) (Nat.lt_irrefl 10)
              | mark m => exact absurd (Nat.lt_of_lt_of_le hgone hused) (Nat.lt_irrefl 10)
              | source s => exact absurd (Nat.lt_of_lt_of_le hgone hused) (Nat.lt_irrefl 10)
              | eventAlias a => exact Or.inl (Nat.lt_trans (by decide : 2 < 6) hgone)
              | _ => exact Or.inr rfl
      | inr hstage =>
          have hne : phrase ≠ .opening := by
            rintro rfl
            cases hopen with
            | inl hlate => exact absurd hstage (Nat.not_le.mpr hlate)
            | inr hprevious => simp [hadjoins.opening rfl] at hprevious
          obtain ⟨token, tail, hleft, hstarts⟩ := Phrase.exists_starts_left hstage hne
          rw [hleft, List.cons_append] at h
          exact hstarts.isStart_of_written h

theorem handler?_inner {n z : List Char} (hn : ∀ c ∈ n, isWord c = true)
    (hborder : isWordAt z.head? = false)
    (hstart : ∀ c, (z.dropWhile isBlank).head? = some c → IsStart c) :
    handler? none ('#' :: (n ++ z)) = none := by
  have hhandler : ∀ c ∈ n, isHandlerChar c = true := fun c hc => by
    simp [isHandlerChar, hn c hc]
  have hstop : z.dropWhile isHandlerChar = z := by
    cases z with
    | nil => rfl
    | cons c z =>
        have hc : isHandlerChar c = false := by
          cases hblank : isBlank c with
          | true =>
              have hword : isWord c = false := hborder
              have hcolon : c ≠ ':' := ne_of_holds hblank (by decide)
              have hdot : c ≠ '.' := ne_of_holds hblank (by decide)
              simp [isHandlerChar, hword, hcolon, hdot]
          | false =>
              have hword : isWord c = false := hborder
              have hc := hstart c (by simp [hblank])
              simp [isHandlerChar, hword, hc.2.2.1, hc.2.2.2.1]
        simp [hc]
  have hbehind : (n ++ z).dropWhile isHandlerChar = z := by
    rw [List.dropWhile_append_of_pos hhandler, hstop]
  have hparen : after? '(' (z.dropWhile isBlank) = none := by
    cases hz : z.dropWhile isBlank with
    | nil => rfl
    | cons c s =>
        have hc := hstart c (by simp [hz])
        simp [after?, hc.2.1]
  cases hs : n ++ z with
  | nil => rfl
  | cons c s =>
      rw [handler?_cons, ← hs, hbehind, hparen]
      exact ite_self none

theorem clears_handler?_inner {name : Name}
    (hchain : (.source (.inner name) :: rest).IsChain Adjoins) :
    Clears handler? 1 (.source (.inner name)) rest := by
  apply clears_of_scan rfl
  intro u v hu hv hap
  obtain ⟨gap, gap', rfl, hgap, hgap'⟩ := hu.exists_singleton
  have hstart : ∀ c, ((gap' ++ v).dropWhile isBlank).head? = some c → IsStart c := by
    rw [dropWhile_blanks hgap']
    exact isStart_of_written (by decide) (Or.inr rfl) hchain hv
  have hborder : isWordAt (gap' ++ v).head? = false :=
    border_of_apart (Source.inner name).isWordAt_getLast? (apart_of_blanks_behind hgap' hap)
  have hnone := handler?_inner name.isName.2.1 hborder hstart
  have hname : ∀ c ∈ name.chars ++ gap', ∀ s, handler? none (c :: s) = none := by
    intro c hc s
    rcases List.mem_append.mp hc with hc | hc
    · exact handler?_beginsWith c s (ne_of_holds (name.isName.2.1 c hc) (by decide))
    · exact handler?_skipsBlanks.blank s (hgap' c hc)
  have hrest := handler?_blind.scan_append (v := v) hname
  rw [List.append_assoc] at hrest
  rw [List.append_assoc, scan_blanks handler?_skipsBlanks hgap]
  simp only [Source.plain, List.cons_append, List.append_assoc]
  rw [handler?_blind.scan_cons hnone, hrest]
  simp

theorem clears_handler? (hchain : (phrase :: rest).IsChain Adjoins) :
    Clears handler? 1 phrase rest := by
  have hother : phrase.left 2 = phrase.left 1 → (1 ≤ phrase.stage → ¬ phrase.MayHold '#') →
      Clears handler? 1 phrase rest := fun hsame hfree =>
    clears_of_char handler?_blind (by decide) (by decide) handler?_beginsWith hsame hfree
  cases phrase with
  | handler h =>
      apply clears_of_match handler?_skipsBlanks rfl
      intro u v hu hap
      obtain ⟨gap, gap', rfl, hgap, hgap'⟩ := hu.exists_singleton
      exact ⟨gap, h.chars, gap', rfl, hgap, hgap', handler?_takes h _⟩
  | source s =>
      cases s with
      | stream name => exact hother rfl fun _ => id
      | inner name => exact clears_handler?_inner hchain
  | condition d => exact hother rfl fun _ hmay => hmay.1 rfl
  | mark m => exact hother rfl fun _ => not_mem_mark (by decide) m
  | filter f => exact hother rfl fun h => absurd h (Nat.not_succ_le_zero 0)
  | _ => exact hother rfl fun _ => by simp [Phrase.MayHold]

theorem isWordAt_map_ungroupedChar (o : Option Char) :
    isWordAt (o.map ungroupedChar) = isWordAt o := by
  cases o with
  | none => rfl
  | some c => exact isWord_ungroupedChar c

theorem apart_ungrouped (hap : Apart u.getLast? v.head?) :
    Apart (u.map ungroupedChar).getLast? (v.map ungroupedChar).head? := by
  rwa [List.getLast?_map, List.head?_map, Apart, isWordAt_map_ungroupedChar,
    isWordAt_map_ungroupedChar]

theorem isBlank_of_mem_ungrouped (hgap : ∀ c ∈ gap, isBlank c = true) :
    ∀ c ∈ gap.map ungroupedChar, isBlank c = true := by
  intro c hc
  obtain ⟨d, hd, rfl⟩ := List.mem_map.mp hc
  rw [ungroupedChar]
  split
  · decide
  · exact hgap d hd

theorem Written.ungrouped {letters : IsLetters word} {d : Condition}
    (h : Written [.keyword word letters, .plain d.plain] u) :
    Written [.keyword word letters, .plain d.ungrouped.plain] (u.map ungroupedChar) := by
  obtain ⟨gap, t, s, rfl, hgap, ht, hts, hs⟩ := h.exists_append
  obtain ⟨gap₁, _, gap₂, rfl, hgap₁, rfl, hds, hgap₂⟩ := hs.exists_append
  have hkeyword : t.map ungroupedChar = t :=
    (List.map_congr_left fun c hc =>
      ungroupedChar_of_isWord ((isRun_of_toLower letters ht).2 c hc)).trans (List.map_id t)
  have hinner : Written [.plain d.ungrouped.plain]
      ((gap₁ ++ (d.plain.chars ++ gap₂)).map ungroupedChar) := by
    rw [List.map_append, List.map_append]
    exact .cons (isBlank_of_mem_ungrouped hgap₁) rfl (apart_ungrouped hds)
      (.nil (isBlank_of_mem_ungrouped hgap₂.blanks_of_nil))
  rw [List.map_append, List.map_append]
  refine .cons (isBlank_of_mem_ungrouped hgap) ?_ (apart_ungrouped hts) hinner
  rwa [hkeyword]

theorem grouping?_skipsBlanks : grouping?.SkipsBlanks where
  border := fun _ => grouping?_blind _ _
  blank := by
    intro c s hc
    have hopen : c ≠ '(' := ne_of_holds hc (by decide)
    have hclose : c ≠ ')' := ne_of_holds hc (by decide)
    simp [grouping?, hopen, hclose]

theorem clears_grouping? : Clears grouping? 2 phrase rest := by
  have hother : phrase.left 3 = phrase.left 2 →
      (2 ≤ phrase.stage → ¬ phrase.MayHold '(' ∧ ¬ phrase.MayHold ')') →
        Clears grouping? 2 phrase rest := by
    intro hsame hfree
    apply clears_of_scan hsame
    intro u v hu hv hap
    have hopens : '(' ∉ u :=
      Phrase.not_mem_of_written hu (by decide) (by decide) fun h => (hfree h).1
    have hcloses : ')' ∉ u :=
      Phrase.not_mem_of_written hu (by decide) (by decide) fun h => (hfree h).2
    apply grouping?_blind.scan_append
    intro c hc s
    have hopen : c ≠ '(' := by rintro rfl; exact hopens hc
    have hclose : c ≠ ')' := by rintro rfl; exact hcloses hc
    simp [grouping?, hopen, hclose]
  have hmatch : ∀ c h, (c = '(' ∨ c = ')') → phrase.left 2 = [symbol c h] → phrase.left 3 = [] →
      Clears grouping? 2 phrase rest := by
    intro c h hc hleft hgone
    apply clears_of_match grouping?_skipsBlanks hgone
    intro u v hu hap
    rw [hleft] at hu
    obtain ⟨gap, gap', rfl, hgap, hgap'⟩ := hu.exists_singleton
    exact ⟨gap, [c], gap', rfl, hgap, hgap', by simp, by simp [grouping?, hc, taken]⟩
  cases phrase with
  | opening => exact hmatch '(' _ (Or.inl rfl) rfl rfl
  | closing => exact hmatch ')' _ (Or.inr rfl) rfl rfl
  | condition d =>
      intro u v hu hv hap hrest
      rw [blankOut_grouping?, List.map_append]
      rw [blankOut_grouping?] at hrest
      exact (Written.ungrouped hu).append hrest (apart_ungrouped hap)
  | mark m => exact hother rfl fun _ => ⟨not_mem_mark (by decide) m, not_mem_mark (by decide) m⟩
  | source s => exact hother rfl fun _ => by cases s <;> simp [Phrase.MayHold]
  | filter f => exact hother rfl fun h => absurd h (by simp [Phrase.stage])
  | handler f => exact hother rfl fun h => absurd h (by simp [Phrase.stage])
  | _ => exact hother rfl fun _ => by simp [Phrase.MayHold]

end EventOperator.Query
