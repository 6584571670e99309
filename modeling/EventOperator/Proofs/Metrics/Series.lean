import EventOperator.Identity.Source
import EventOperator.Metrics.Collector
import EventOperator.Proofs.Text.Run

/-!
The series of a context. The key of a series tells which series it is and which context it belongs to,
whatever the ids of contexts are.
-/

namespace EventOperator.Metrics

inductive Series where
  | added
  | removed
  | registered
  | managers
  | assembledAll
  | assembledOne
  deriving DecidableEq

namespace Series

variable {s s' : Series} {context context' : String}

def name : Series → String
  | added => Collector.plansAdded
  | removed => Collector.plansRemoved
  | registered => Collector.plansRegistered
  | managers => Collector.managersCreated
  | assembledAll | assembledOne => Collector.plansAssembled

def mode? : Series → Option String
  | assembledAll => some "all"
  | assembledOne => some "one"
  | _ => none

def labels (s : Series) (context : String) : Labels :=
  match s.mode? with
  | none => Collector.contextLabels context
  | some mode => Table.ofList [("context", context), ("mode", mode)]

def key (s : Series) (context : String) : String := Metrics.key s.name (s.labels context)

theorem key_contextLabels (name context : String) :
    Metrics.key name (Collector.contextLabels context) =
      name ++ "\x7b" ++ labelText ("context", context) ++ "\x7d" := rfl

theorem key_mode (name context mode : String) :
    Metrics.key name (Table.ofList [("context", context), ("mode", mode)]) =
      name ++ "\x7b" ++ (labelText ("context", context) ++ "," ++ labelText ("mode", mode))
        ++ "\x7d" := by
  have hafter : ¬ "mode" < "context" := by decide
  have hsorted : sortedLabels (Table.ofList [("context", context), ("mode", mode)]) =
      [("context", context), ("mode", mode)] := if_neg hafter
  have hsome : (Table.ofList [("context", context), ("mode", mode)]).isEmpty = false := rfl
  rw [Metrics.key, hsome, hsorted]
  rfl

/-- What stands behind the id of the context in a key. -/
def ending (s : Series) : String :=
  match s.mode? with
  | none => "\"\x7d"
  | some mode => "\"," ++ labelText ("mode", mode) ++ "\x7d"

theorem key_eq (s : Series) (context : String) :
    s.key context = s.name ++ ("\x7b" ++ ("context=\"" ++ (context ++ s.ending))) := by
  have hcontext : "context" ++ "=\"" = "context=\"" := by decide
  have hlast : "\"" ++ "\x7d" = "\"\x7d" := by decide
  have hnext : "\"" ++ "," = "\"," := by decide
  rw [key, labels, ending]
  cases s.mode? with
  | none =>
      rw [key_contextLabels, ← hlast, ← hcontext]
      simp only [labelText, String.append_assoc]
  | some mode =>
      rw [key_mode, ← hnext, ← hcontext]
      simp only [labelText, String.append_assoc]

theorem takeWhile_key (s : Series) (context : String) :
    (s.key context).toList.takeWhile (· ≠ '{') = s.name.toList := by
  have hname : ∀ c ∈ s.name.toList, decide (c ≠ '{') = true := by
    cases s <;> decide
  have hopen : ∀ v c, ("\x7b" ++ v).toList.head? = some c → decide (c ≠ '{') = false := by
    intro v c hc
    have hbrace : "\x7b".toList = ['{'] := by decide
    rw [String.toList_append, hbrace, List.cons_append, List.head?_cons] at hc
    obtain rfl := Option.some.inj hc
    rfl
  rw [key_eq, String.toList_append]
  exact Text.takeWhile_append_stop hname (hopen _)

theorem length_ending (h : s.name = s'.name) : s.ending.toList.length = s'.ending.toList.length := by
  cases s <;> cases s' <;> first | exact absurd h (by decide) | decide +kernel

theorem eq_of_ending (hname : s.name = s'.name) (hending : s.ending = s'.ending) : s = s' := by
  cases s <;> cases s' <;>
    first | rfl | exact absurd hname (by decide) | exact absurd hending (by decide)

theorem key_injective (h : s.key context = s'.key context') : s = s' ∧ context = context' := by
  have hname : s.name = s'.name := by
    rw [← String.toList_inj, ← takeWhile_key s context, h, takeWhile_key]
  rw [key_eq, key_eq, hname] at h
  have hrest := Identity.Source.append_injective
    (Identity.Source.append_injective (Identity.Source.append_injective h))
  rw [← String.toList_inj, String.toList_append, String.toList_append] at hrest
  obtain ⟨hcontext, hending⟩ := List.append_inj' hrest (length_ending hname)
  exact ⟨eq_of_ending hname (String.toList_inj.mp hending), String.toList_inj.mp hcontext⟩

theorem includes_iff :
    includes (s.labels context) (Collector.contextLabels context') = true ↔ context = context' := by
  have hget : (s.labels context).get? "context" = some context := by
    rw [labels]
    cases s.mode? <;> rfl
  have hincludes : includes (s.labels context) (Collector.contextLabels context') =
      (decide ((s.labels context).get? "context" = some context') && true) := rfl
  rw [hincludes, hget, Bool.and_true, decide_eq_true_iff, Option.some_inj]

end Series

end EventOperator.Metrics
