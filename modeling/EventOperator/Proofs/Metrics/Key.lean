import EventOperator.Identity.Source
import EventOperator.Metrics.Collector
import EventOperator.Proofs.Table
import EventOperator.Proofs.Text.Run

/-!
Keys of series. A series is its name and its labels, in whatever order they were given. Two series
have different keys if their labels are legible, that is if no name of a label holds what ends a
name in a key and no value holds what ends a value.
-/

namespace EventOperator

variable {a b : Char} {u u' v v' : List Char}

/-- A text is found again in front of the first place of two different characters that follow each
other. -/
theorem Text.append_pair_injective (hne : a ≠ b) (hu : ¬ [a, b] <:+: u) (hu' : ¬ [a, b] <:+: u')
    (h : u ++ a :: b :: v = u' ++ a :: b :: v') : u = u' ∧ v = v' := by
  -- Where one text is at its end, the other would go on with the two characters.
  have hend : ∀ {c : Char} {s w w' : List Char}, ¬ [a, b] <:+: c :: s →
      a :: b :: w ≠ c :: s ++ a :: b :: w' := by
    intro c s w w' hs heq
    obtain ⟨rfl, hrest⟩ := List.cons.inj heq
    cases s with
    | nil => exact hne (List.cons.inj hrest).1.symm
    | cons d s =>
        obtain ⟨rfl, -⟩ := List.cons.inj hrest
        exact hs ⟨[], s, rfl⟩
  induction u generalizing u' with
  | nil =>
      cases u' with
      | nil => exact ⟨rfl, (List.cons.inj (List.cons.inj h).2).2⟩
      | cons c u' => exact absurd h (hend hu')
  | cons c u ih =>
      cases u' with
      | nil => exact absurd h.symm (hend hu)
      | cons d u' =>
          obtain ⟨rfl, hrest⟩ := List.cons.inj h
          obtain ⟨rfl, hv⟩ := ih (fun hin => hu (hin.trans (List.suffix_cons c u).isInfix))
            (fun hin => hu' (hin.trans (List.suffix_cons c u').isInfix)) hrest
          exact ⟨rfl, hv⟩

namespace Metrics

variable {name other : String} {label : String × String} {labels others : Labels}
  {rows rows' : List (String × String)}

theorem insertSorted_perm (label : String × String) (rows : List (String × String)) :
    (insertSorted label rows).Perm (label :: rows) := by
  induction rows with
  | nil => exact .refl _
  | cons first rest ih =>
      rw [insertSorted]
      split
      · exact .refl _
      · exact (ih.cons first).trans (.swap label first rest)

theorem foldl_insertSorted_perm (rows sorted : List (String × String)) :
    (rows.foldl (fun sorted label => insertSorted label sorted) sorted).Perm (rows ++ sorted) := by
  induction rows generalizing sorted with
  | nil => exact .refl _
  | cons label rows ih =>
      exact ((ih _).trans ((insertSorted_perm label sorted).append_left rows)).trans
        List.perm_middle

theorem sortedLabels_perm (labels : Labels) : (sortedLabels labels).Perm labels.rows := by
  have hperm := foldl_insertSorted_perm labels.rows []
  rwa [List.append_nil] at hperm

def IsSorted (rows : List (String × String)) : Prop := rows.Pairwise fun a b => a.1 ≤ b.1

theorem IsSorted.insert (h : IsSorted rows) (label : String × String) :
    IsSorted (insertSorted label rows) := by
  induction rows with
  | nil => exact List.pairwise_singleton _ _
  | cons first rest ih =>
      obtain ⟨hfirst, hrest⟩ := List.pairwise_cons.mp h
      rw [insertSorted]
      split
      · rename_i hlt
        have hle : label.1 ≤ first.1 := String.not_lt.mp (String.lt_asymm hlt)
        refine List.pairwise_cons.mpr ⟨?_, h⟩
        intro row hrow
        rcases List.mem_cons.mp hrow with rfl | hrow
        · exact hle
        · exact String.le_trans hle (hfirst row hrow)
      · rename_i hlt
        refine List.pairwise_cons.mpr ⟨?_, ih hrest⟩
        intro row hrow
        rcases List.mem_cons.mp ((insertSorted_perm label rest).mem_iff.mp hrow) with rfl | hrow
        · exact String.not_lt.mp hlt
        · exact hfirst row hrow

theorem isSorted_sortedLabels (labels : Labels) : IsSorted (sortedLabels labels) := by
  have hfold : ∀ (rows sorted : List (String × String)), IsSorted sorted →
      IsSorted (rows.foldl (fun sorted label => insertSorted label sorted) sorted) := by
    intro rows
    induction rows with
    | nil => exact fun _ h => h
    | cons label rows ih => exact fun sorted h => ih _ (h.insert label)
  exact hfold labels.rows [] List.Pairwise.nil

/-- The order in which labels were given does not matter. -/
theorem sortedLabels_eq_iff : sortedLabels labels = sortedLabels others ↔ labels.Same others := by
  rw [Table.same_iff_perm]
  constructor
  · intro h
    exact (sortedLabels_perm labels).symm.trans (h ▸ sortedLabels_perm others)
  · intro h
    have hperm : (sortedLabels labels).Perm (sortedLabels others) :=
      ((sortedLabels_perm labels).trans h).trans (sortedLabels_perm others).symm
    refine hperm.eq_of_pairwise ?_ (isSorted_sortedLabels labels) (isSorted_sortedLabels others)
    intro a b ha hb hab hba
    have hmem : a ∈ others.rows := h.mem_iff.mp ((sortedLabels_perm labels).mem_iff.mp ha)
    exact Table.eq_of_mem_rows hmem ((sortedLabels_perm others).mem_iff.mp hb)
      (String.le_antisymm hab hba)

/-- The name does not hold the equals sign and the quote that end a name, and the value does not
hold the quote and the comma that end a value in front of another label. -/
def IsLegible (label : String × String) : Prop :=
  ¬ ['=', '"'] <:+: label.1.toList ∧ ¬ ['"', ','] <:+: label.2.toList

instance (label : String × String) : Decidable (IsLegible label) :=
  inferInstanceAs (Decidable (_ ∧ _))

def Labels.Legible (labels : Labels) : Prop := ∀ label ∈ labels.rows, IsLegible label

instance (labels : Labels) : Decidable labels.Legible :=
  List.decidableBAll _ labels.rows

def labelChars (label : String × String) : List Char :=
  label.1.toList ++ '=' :: '"' :: (label.2.toList ++ ['"', ','])

theorem labelChars_append_injective {label' : String × String} (h : IsLegible label)
    (h' : IsLegible label') (heq : labelChars label ++ u = labelChars label' ++ v) :
    label = label' ∧ u = v := by
  simp only [labelChars, List.append_assoc, List.cons_append, List.nil_append] at heq
  obtain ⟨hname, hrest⟩ := Text.append_pair_injective (by decide) h.1 h'.1 heq
  obtain ⟨hvalue, hbehind⟩ := Text.append_pair_injective (by decide) h.2 h'.2 hrest
  exact ⟨Prod.ext (String.toList_inj.mp hname) (String.toList_inj.mp hvalue), hbehind⟩

theorem flatMap_labelChars_injective (h : ∀ label ∈ rows, IsLegible label)
    (h' : ∀ label ∈ rows', IsLegible label)
    (heq : rows.flatMap labelChars = rows'.flatMap labelChars) : rows = rows' := by
  have hsome : ∀ (label : String × String) (u : List Char), labelChars label ++ u ≠ [] := by
    simp [labelChars]
  induction rows generalizing rows' with
  | nil =>
      cases rows' with
      | nil => rfl
      | cons label' rows' => exact absurd heq.symm (hsome label' _)
  | cons label rows ih =>
      cases rows' with
      | nil => exact absurd heq (hsome label _)
      | cons label' rows' =>
          obtain ⟨rfl, hrest⟩ := labelChars_append_injective (h label List.mem_cons_self)
            (h' label' List.mem_cons_self) heq
          rw [ih (fun row hrow => h row (List.mem_cons_of_mem label hrow))
            (fun row hrow => h' row (List.mem_cons_of_mem label hrow)) hrest]

theorem toList_labelText (label : String × String) :
    (labelText label).toList ++ [','] = labelChars label := by
  have hname : "=\"".toList = ['=', '"'] := by decide
  have hvalue : "\"".toList = ['"'] := by decide
  simp [labelText, labelChars, hname, hvalue]

theorem toList_intercalate_labelText (hne : rows ≠ []) :
    (",".intercalate (rows.map labelText)).toList ++ [','] = rows.flatMap labelChars := by
  have hcomma : ",".toList = [','] := by decide
  rw [String.toList_intercalate, hcomma]
  induction rows with
  | nil => exact absurd rfl hne
  | cons label rows ih =>
      cases rows with
      | nil => simp [toList_labelText]
      | cons next rows =>
          have hrest := ih (List.cons_ne_nil next rows)
          simp only [List.map_cons, List.flatMap_cons, List.intercalate_cons_cons,
            List.append_assoc] at hrest ⊢
          rw [hrest, ← toList_labelText label]
          simp

def Labels.text (labels : Labels) : String :=
  if labels.isEmpty then ""
  else "\x7b" ++ ",".intercalate ((sortedLabels labels).map labelText) ++ "\x7d"

theorem key_eq_append (name : String) (labels : Labels) :
    key name labels = name ++ labels.text := by
  rw [key, Labels.text]
  split
  · exact String.append_empty.symm
  · simp only [String.append_assoc]

theorem sortedLabels_eq_nil_iff : sortedLabels labels = [] ↔ labels.isEmpty = true := by
  rw [Table.isEmpty, List.isEmpty_iff, ← List.length_eq_zero_iff, ← List.length_eq_zero_iff,
    (sortedLabels_perm labels).length_eq]

theorem toList_text (labels : Labels) :
    labels.text.toList =
      if sortedLabels labels = [] then []
      else '{' :: ((",".intercalate ((sortedLabels labels).map labelText)).toList ++ ['}']) := by
  have hopen : "\x7b".toList = ['{'] := by decide
  have hclose : "\x7d".toList = ['}'] := by decide
  rw [Labels.text]
  by_cases hempty : labels.isEmpty = true
  · rw [if_pos hempty, if_pos (sortedLabels_eq_nil_iff.mpr hempty)]
    rfl
  · rw [if_neg hempty, if_neg (mt sortedLabels_eq_nil_iff.mp hempty), String.toList_append,
      String.toList_append, hopen, hclose]
    rfl

theorem text_eq_iff (h : labels.Legible) (h' : others.Legible) :
    labels.text = others.text ↔ labels.Same others := by
  rw [← sortedLabels_eq_iff]
  constructor
  · intro heq
    have hlegible : ∀ label ∈ sortedLabels labels, IsLegible label := fun label hlabel =>
      h label ((sortedLabels_perm labels).mem_iff.mp hlabel)
    have hlegible' : ∀ label ∈ sortedLabels others, IsLegible label := fun label hlabel =>
      h' label ((sortedLabels_perm others).mem_iff.mp hlabel)
    rw [← String.toList_inj, toList_text, toList_text] at heq
    split at heq
    · rename_i hnil
      split at heq
      · rename_i hnil'
        rw [hnil, hnil']
      · exact absurd heq (by simp)
    · rename_i hne
      split at heq
      · exact absurd heq (by simp)
      · rename_i hne'
        apply flatMap_labelChars_injective hlegible hlegible'
        have hinner := List.append_cancel_right (List.cons.inj heq).2
        rw [← toList_intercalate_labelText hne, ← toList_intercalate_labelText hne', hinner]
  · intro heq
    rw [← String.toList_inj, toList_text, toList_text, heq]

theorem takeWhile_key (hname : '{' ∉ name.toList) (labels : Labels) :
    (key name labels).toList.takeWhile (· ≠ '{') = name.toList := by
  rw [key_eq_append, String.toList_append]
  apply Text.takeWhile_append_stop
  · intro c hc
    simpa using fun heq : c = '{' => hname (heq ▸ hc)
  · intro c hc
    rw [toList_text] at hc
    split at hc
    · exact nomatch hc
    · obtain rfl := Option.some.inj hc
      rfl

theorem key_eq_iff (hname : '{' ∉ name.toList) (hother : '{' ∉ other.toList)
    (h : labels.Legible) (h' : others.Legible) :
    key name labels = key other others ↔ name = other ∧ labels.Same others := by
  constructor
  · intro heq
    have hnames : name = other := by
      rw [← String.toList_inj, ← takeWhile_key hname labels, heq, takeWhile_key hother]
    subst hnames
    rw [key_eq_append, key_eq_append] at heq
    exact ⟨rfl, (text_eq_iff h h').mp (Identity.Source.append_injective heq)⟩
  · rintro ⟨rfl, hsame⟩
    rw [key_eq_append, key_eq_append, (text_eq_iff h h').mpr hsame]

namespace Collector

variable {α : Type} (c : Collector α)

theorem counter_increment [OfNat α 0] [Add α] (amount : α) :
    (c.increment name amount labels).counter other others =
      if key name labels = key other others then c.counter name labels + amount
      else c.counter other others := by
  rw [counter, increment, track, Table.get?_insert]
  split <;> rfl

theorem gauge_setGauge (level : Amount) :
    (c.setGauge name level labels).gauge other others =
      if key name labels = key other others then level else c.gauge other others := by
  rw [gauge, setGauge, track, Table.get?_insert]
  split <;> rfl

end Collector

/-- Series with legible labels have one key only if they are the same, and what is recorded for one
of them leaves the others as they are. -/
theorem series_apart {α : Type} [OfNat α 0] [Add α] (hname : '{' ∉ name.toList)
    (hother : '{' ∉ other.toList) (hlabels : labels.Legible) (hothers : others.Legible) :
    (key name labels = key other others ↔ name = other ∧ labels.Same others) ∧
      ∀ (c : Collector α) (amount : α) (level : Amount),
        ¬ (name = other ∧ labels.Same others) →
          (c.increment name amount labels).counter other others = c.counter other others ∧
            (c.setGauge name level labels).gauge other others = c.gauge other others := by
  have hkey := key_eq_iff hname hother hlabels hothers
  refine ⟨hkey, ?_⟩
  intro c amount level hne
  rw [c.counter_increment, c.gauge_setGauge, if_neg (mt hkey.mp hne), if_neg (mt hkey.mp hne)]
  exact ⟨rfl, rfl⟩

def ordersAtMarket : Labels := Table.ofList [("side", "bid, ask"), ("note", "size 5\" rack")]

theorem series_apart_market :
    let others := Table.ofList [("note", "size 5\" rack"), ("side", "bid")]
    ((Collector.empty.increment "orders" 2 ordersAtMarket).counter "orders" others : Nat) = 0 ∧
      key "orders" ordersAtMarket =
        "orders\x7bnote=\"size 5\" rack\",side=\"bid, ask\"\x7d" := by
  intro others
  have hdifferent : ¬ ("orders" = "orders" ∧ ordersAtMarket.Same others) := by
    rintro ⟨-, hsame⟩
    exact absurd (hsame "side") (by decide)
  have hname : '{' ∉ "orders".toList := by decide
  have hlabels : ordersAtMarket.Legible := by decide +kernel
  have hothers : Labels.Legible others := by decide +kernel
  obtain ⟨-, hapart⟩ := series_apart (α := Nat) hname hname hlabels hothers
  exact ⟨(hapart .empty 2 (.whole 1) hdifferent).1, by decide +kernel⟩

/-- A value that holds a quote with a comma behind it is taken for two labels. -/
theorem series_of_quoted_value :
    let labels : Labels := Table.ofList [("side", "bid\",venue=\"main")]
    let others : Labels := Table.ofList [("side", "bid"), ("venue", "main")]
    ¬ labels.Same others ∧ key "orders" labels = key "orders" others ∧
      (Collector.empty.counter "orders" others : Nat) = 0 ∧
      ((Collector.empty.increment "orders" 1 labels).counter "orders" others : Nat) = 1 := by
  intro labels others
  have hdifferent : ¬ labels.Same others := fun hsame => absurd (hsame "venue") (by decide)
  exact ⟨hdifferent, by decide +kernel, rfl, by decide +kernel⟩

end Metrics

end EventOperator
