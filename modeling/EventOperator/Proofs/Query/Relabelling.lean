import EventOperator.Proofs.Query.Reading
import EventOperator.Proofs.Text.Relabelling

/-!
Letters that no pattern for sources tells apart. No keyword of a clause has an `m`, a `q` or a `z`,
so a clause in which some of them are put for others names the same sources up to these letters.
-/

namespace EventOperator.Query

open EventOperator.Text

variable {goes : Char → Char → Prop} {f : Char → Bool} {c d : Char}
  {s t name other word : List Char}

def freeLetters : List Char := ['m', 'M', 'q', 'Q', 'z', 'Z']

/-- No letter of the word is a free one. -/
def IsBound (word : List Char) : Prop :=
  ∀ letter ∈ word, ∀ c ∈ freeLetters, sameLetter letter c = false

instance (word : List Char) : Decidable (IsBound word) := by
  unfold IsBound
  infer_instance

/-- Free letters may go with each other, and every other character with itself. -/
structure Relabels (goes : Char → Char → Prop) : Prop where
  swaps : ∀ c d, goes c d → c = d ∨ c ∈ freeLetters ∧ d ∈ freeLetters
  blank : goes ' ' ' '

theorem name?_of_ne (hc : c ≠ '#') (before : Option Char) (s : List Char) :
    name? before (c :: s) =
      if isNameStart c then some (taken (c :: s) (s.dropWhile isWord) (c :: s.takeWhile isWord))
      else none := by
  unfold name?
  split
  · rename_i heq
    exact absurd (List.cons.inj heq).1 hc
  · rename_i heq
    obtain ⟨rfl, rfl⟩ := List.cons.inj heq
    rfl
  · rename_i heq
    exact nomatch heq

namespace Relabels

variable (h : Relabels goes)
include h

theorem ignores (hf : ∀ c ∈ freeLetters, f c = f 'm') : Ignores goes f := by
  intro c d hcd
  rcases h.swaps c d hcd with rfl | ⟨hc, hd⟩
  · rfl
  · rw [hf c hc, hf d hd]

theorem ignores_eq (hd : d ∉ freeLetters) : Ignores goes (· = d) := by
  apply h.ignores
  have hne : ∀ c ∈ freeLetters, decide (c = d) = false := fun c hc =>
    decide_eq_false fun heq => hd (heq ▸ hc)
  intro c hc
  rw [hne c hc, hne 'm' (by decide)]

theorem ignores_ne (hd : d ∉ freeLetters) : Ignores goes (· ≠ d) := by
  intro c c' hcc'
  simp only [decide_not, h.ignores_eq hd c c' hcc']

theorem ignores_isWord : Ignores goes isWord := h.ignores (by decide)

theorem ignores_isBlank : Ignores goes isBlank := h.ignores (by decide)

theorem ignores_isHandlerChar : Ignores goes isHandlerChar := h.ignores (by decide)

theorem ignores_isDigit : Ignores goes isDigit := h.ignores (by decide)

theorem ignores_isNumberChar : Ignores goes isNumberChar := h.ignores (by decide)

theorem ignores_isNameStart : Ignores goes isNameStart := h.ignores (by decide)

theorem ignores_sameLetter (hword : IsBound word) :
    ∀ letter ∈ word, Ignores goes (sameLetter letter) := by
  intro letter hletter
  apply h.ignores
  intro c hc
  rw [hword letter hletter c hc, hword letter hletter 'm' (by decide)]

theorem tracks_keyword (hword : IsBound word) : Tracks goes (afterWord? word) :=
  tracks_afterWord? (h.ignores_sameLetter hword)

theorem tracks_afterMatching? (depth : Nat) : Tracks goes (afterMatching? depth) := by
  intro s t hst
  induction hst generalizing depth with
  | nil => exact .none
  | @cons c d s t hcd hst ih =>
      have hopen := h.ignores_eq (by decide : '[' ∉ freeLetters) c d hcd
      have hclose := h.ignores_eq (by decide : ']' ∉ freeLetters) c d hcd
      rw [decide_eq_decide] at hopen hclose
      simp only [afterMatching?, hopen, hclose]
      split
      · split
        · exact .some hst
        · exact ih _
      · split
        · exact ih _
        · exact ih _

theorem filter?_tracks : filter?.Tracks goes fun _ _ => True :=
  filter?_reads.tracks
    ((tracks_after? (h.ignores_eq (by decide))).kleisli (h.tracks_afterMatching? 0))
    h.ignores_isWord

theorem handler?_tracks : handler?.Tracks goes fun _ _ => True := by
  have hname : Tracks goes (span? isHandlerChar isHandlerChar) :=
    tracks_span? h.ignores_isHandlerChar h.ignores_isHandlerChar
  have hopen : Tracks goes (pastTo? isBlank '(') :=
    tracks_pastTo? h.ignores_isBlank (h.ignores_eq (by decide))
  have hclose : Tracks goes (pastTo? (· ≠ ')') ')') :=
    tracks_pastTo? (h.ignores_ne (by decide)) (h.ignores_eq (by decide))
  exact handler?_reads.tracks ((tracks_after? (h.ignores_eq (by decide))).kleisli
    (hname.kleisli (hopen.kleisli hclose))) h.ignores_isWord

theorem grouping?_tracks : grouping?.Tracks goes fun _ _ => True :=
  grouping?_reads.tracks (tracks_one? (h.ignores (by decide))) h.ignores_isWord

theorem condition?_tracks : condition?.Tracks goes fun _ _ => True := by
  have hjoin : ∀ word ∈ joinWords, IsBound word := by decide
  have hend : Tracks goes (border? >=> fromWord? joinWords) :=
    (tracks_border? h.ignores_isWord).kleisli
      (tracks_fromWord? isLetters_joinWords
        (fun word hword => h.ignores_sameLetter (hjoin word hword)) h.ignores_isWord
        (h.ignores_eq (by decide)))
  exact condition?_reads.tracks ((h.tracks_keyword (by decide)).kleisli hend) h.ignores_isWord

theorem timeBound?_tracks : timeBound?.Tracks goes fun _ _ => True :=
  timeBound?_reads.tracks ((h.tracks_keyword (by decide)).kleisli
    ((tracks_border? h.ignores_isWord).kleisli tracks_toEnd?)) h.ignores_isWord

theorem waiting?_tracks : waiting?.Tracks goes fun _ _ => True := by
  have hnumber : Tracks goes (blanksTo? isDigit isNumberChar) :=
    tracks_blanksTo? h.ignores_isBlank h.ignores_isDigit h.ignores_isNumberChar
  have hunit : Tracks goes (past? isBlank >=> past? isWord) :=
    (tracks_past? h.ignores_isBlank).kleisli (tracks_past? h.ignores_isWord)
  exact waiting?_reads.tracks ((h.tracks_keyword (by decide)).kleisli (hnumber.kleisli hunit))
    h.ignores_isWord

theorem eventAlias?_tracks : eventAlias?.Tracks goes fun _ _ => True := by
  have hname : Tracks goes (span? isWord isWord) := tracks_span? h.ignores_isWord h.ignores_isWord
  have hsign : Tracks goes (pastTo? isBlank '=') :=
    tracks_pastTo? h.ignores_isBlank (h.ignores_eq (by decide))
  exact eventAlias?_reads.tracks (hname.kleisli hsign) h.ignores_isWord

theorem streamAlias?_tracks : streamAlias?.Tracks goes fun _ _ => True := by
  have hname : Tracks goes (blanksTo? isWord isWord) :=
    tracks_blanksTo? h.ignores_isBlank h.ignores_isWord h.ignores_isWord
  exact streamAlias?_reads.tracks ((h.tracks_keyword (by decide)).kleisli hname) h.ignores_isWord

theorem count?_tracks : count?.Tracks goes fun _ _ => True := by
  have hclose : Tracks goes (pastTo? (· ≠ '>') '>') :=
    tracks_pastTo? (h.ignores_ne (by decide)) (h.ignores_eq (by decide))
  exact count?_reads.tracks ((tracks_after? (h.ignores_eq (by decide))).kleisli hclose)
    h.ignores_isWord

theorem number?_tracks : number?.Tracks goes fun _ _ => True :=
  number?_reads.tracks (tracks_span? h.ignores_isDigit h.ignores_isNumberChar) h.ignores_isWord

theorem noise_tracks : ∀ p ∈ noise, p.Tracks goes fun _ _ => True := by
  simp only [noise, List.forall_mem_cons]
  exact ⟨h.handler?_tracks, h.grouping?_tracks, h.condition?_tracks, h.timeBound?_tracks,
    h.waiting?_tracks, h.eventAlias?_tracks, h.streamAlias?_tracks, h.count?_tracks,
    h.number?_tracks, List.forall_mem_nil _⟩

theorem forall₂_bareClause (hst : List.Forall₂ goes s t) :
    List.Forall₂ goes (bareClause s) (bareClause t) := by
  have hfold : ∀ patterns : List (Pattern Unit),
      (∀ p ∈ patterns, p.Tracks goes fun _ _ => True) → ∀ {s t}, List.Forall₂ goes s t →
        List.Forall₂ goes (patterns.foldl (fun s p => blankOut p s) s)
          (patterns.foldl (fun s p => blankOut p s) t) := by
    intro patterns hpatterns
    induction patterns with
    | nil => exact id
    | cons p patterns ih =>
        intro s t hst
        exact ih (fun q hq => hpatterns q (List.mem_cons_of_mem p hq))
          ((hpatterns p List.mem_cons_self).blankOut h.ignores_isWord hst h.blank)
  rw [bareClause_eq, bareClause_eq]
  exact hfold noise h.noise_tracks (h.filter?_tracks.blankOut h.ignores_isWord hst h.blank)

theorem name?_tracks : name?.Tracks goes (List.Forall₂ goes) := by
  intro before before' s t _ hst
  have hrun : ∀ {c d s t}, goes c d → List.Forall₂ goes s t →
      List.Forall₂ goes (c :: s.takeWhile isWord) (d :: t.takeWhile isWord) := fun hcd hst =>
    .cons hcd (forall₂_takeWhile h.ignores_isWord hst)
  have hrest : ∀ {s t : List Char}, List.Forall₂ goes s t →
      (s.dropWhile isWord).length = (t.dropWhile isWord).length := fun hst =>
    (forall₂_dropWhile h.ignores_isWord hst).length_eq
  cases hst with
  | nil => exact .none
  | @cons c d s t hcd hst =>
      have hsharp := h.ignores_eq (by decide : '#' ∉ freeLetters) c d hcd
      rw [decide_eq_decide] at hsharp
      by_cases hc : c = '#'
      · obtain rfl := hc
        obtain rfl := hsharp.mp rfl
        cases hst with
        | nil => exact .none
        | @cons c d s t hcd' hst =>
            rw [name?, name?, h.ignores_isNameStart c d hcd']
            split
            · exact .some ⟨by simp [taken, hst.length_eq, hrest hst], .cons hcd (hrun hcd' hst)⟩
            · exact .none
      · rw [name?_of_ne hc, name?_of_ne (mt hsharp.mpr hc), h.ignores_isNameStart c d hcd]
        split
        · exact .some ⟨by simp [taken, hst.length_eq, hrest hst], hrun hcd hst⟩
        · exact .none

theorem eq_of_forall₂ (hnone : ∀ c ∈ s, c ∉ freeLetters) (hst : List.Forall₂ goes s t) : s = t := by
  induction hst with
  | nil => rfl
  | @cons c d s t hcd hst ih =>
      obtain ⟨hc, hs⟩ := List.forall_mem_cons.mp hnone
      rcases h.swaps c d hcd with rfl | ⟨hfree, -⟩
      · rw [ih hs]
      · exact absurd hfree hc

omit h in
theorem not_mem_freeLetters (hname : name.map Char.toLower ∈ clauseWords) :
    ∀ c ∈ name, c ∉ freeLetters := by
  have hfree : ∀ c ∈ freeLetters, ∀ word ∈ clauseWords, c.toLower ∉ word := by decide
  exact fun c hc hmem => hfree c hmem _ hname (List.mem_map_of_mem hc)

theorem flip : Relabels (flip goes) where
  swaps c d hdc := (h.swaps d c hdc).imp Eq.symm And.symm
  blank := h.blank

theorem isSourceName_eq (hnames : List.Forall₂ goes name other) :
    isSourceName name = isSourceName other := by
  have hsharp : decide (name.head? = some '#') = decide (other.head? = some '#') := by
    cases hnames with
    | nil => rfl
    | @cons c d _ _ hcd _ => simpa using h.ignores_eq (by decide : '#' ∉ freeLetters) c d hcd
  have hwords : clauseWords.contains (name.map Char.toLower) =
      clauseWords.contains (other.map Char.toLower) := by
    rw [Bool.eq_iff_iff, List.contains_iff_mem, List.contains_iff_mem]
    constructor
    · intro hname
      rwa [← h.eq_of_forall₂ (not_mem_freeLetters hname) hnames]
    · intro hother
      rwa [← h.flip.eq_of_forall₂ (not_mem_freeLetters hother) hnames.flip]
  rw [isSourceName, isSourceName, hwords, decide_not, decide_not, hsharp]

theorem forall₂_clauseSources (hst : List.Forall₂ goes s t) :
    List.Forall₂ (List.Forall₂ goes) (clauseSources s) (clauseSources t) :=
  List.rel_filter (fun _ _ hnames => Bool.eq_iff_iff.mp (h.isSourceName_eq hnames))
    (h.name?_tracks.captures h.ignores_isWord (h.forall₂_bareClause hst))

end Relabels

end EventOperator.Query
