import EventOperator.Decimal.Numeral
import EventOperator.Decimal.Whole
import EventOperator.Issue
import EventOperator.Value.Literal

/-!
Verdicts on data: either it is sound and has been read, or all its issues are known. Verdicts on the
parts of a whole are put together so that the issues of all parts are kept, in order.
-/

namespace EventOperator

inductive Verdict (α : Type u) where
  | sound (a : α)
  | faulty (issues : List Issue)

namespace Verdict

def here (complaint : Complaint) : Verdict α := faulty [Issue.here complaint]

def map (f : α → β) : Verdict α → Verdict β
  | sound a => sound (f a)
  | faulty issues => faulty issues

def seq : Verdict (α → β) → Verdict α → Verdict β
  | sound f, sound a => sound (f a)
  | sound _, faulty issues => faulty issues
  | faulty issues, sound _ => faulty issues
  | faulty issues, faulty more => faulty (issues ++ more)

instance : Functor Verdict where
  map := map

instance : Applicative Verdict where
  pure := sound
  seq f a := seq f (a ())

def within (step : Step) : Verdict α → Verdict α
  | sound a => sound a
  | faulty issues => faulty (issues.map (Issue.within step))

def andThen (v : Verdict α) (next : α → Verdict β) : Verdict β :=
  match v with
  | sound a => next a
  | faulty issues => faulty issues

def toExcept (wrap : List Issue → ε) : Verdict α → Except ε α
  | sound a => .ok a
  | faulty issues => .error (wrap issues)

def all (f : α → Verdict β) : Int → List α → Verdict (List β)
  | _, [] => sound []
  | n, a :: rest => (within (.position n) (f a)).map List.cons |>.seq (all f (n + 1) rest)

end Verdict

namespace Value

def asText : Value → Verdict String
  | text s => .sound s
  | torn => .here .unreadableText
  | bytes octets =>
      match String.fromUTF8? ⟨octets.toArray⟩ with
      | some s => .sound s
      | none => .here .unreadableText
  | _ => .here .notText

def checkLeast (least n : Int) : Verdict Int :=
  if least ≤ n then .sound n else .here (.below least)

def wholeOfText (s : String) : Verdict Int :=
  match Decimal.readNumeral s with
  | .unreadable => .here .unreadableWhole
  | .tooLong => .here .tooLarge
  | .value n => .sound n

def longLimit : Nat := 0x8000000000000000

def isLong (n : Int) : Bool := -(longLimit : Int) ≤ n && n < longLimit

/-- Reals stand for whole numbers only strictly between the limits. -/
def wholeOfReal (x : Float) : Verdict Int :=
  if !Decimal.isFinite x then .here .notFinite
  else
    match Decimal.wholeOfReal? x with
    | none => .here .fractional
    | some n => if n.natAbs < longLimit then .sound n else .here .tooLarge

def asWhole : Value → Verdict Int
  | flag b => .sound (if b then 1 else 0)
  | whole n => .sound n
  | real x => wholeOfReal x
  | text s => wholeOfText s
  | torn => .here .unreadableWhole
  | bytes octets =>
      match String.fromUTF8? ⟨octets.toArray⟩ with
      | some s => wholeOfText s
      | none => .here .unreadableWhole
  | _ => .here .notWhole

def yesWords : List String := ["1", "t", "y", "on", "yes", "true"]

def noWords : List String := ["0", "f", "n", "no", "off", "false"]

def flagOfText (s : String) : Verdict Bool :=
  let s := String.ofList (s.toList.map Char.toLower)
  if yesWords.contains s then .sound true
  else if noWords.contains s then .sound false
  else .here .unreadableFlag

def flagOfWhole (n : Int) : Verdict Bool :=
  if n = 1 then .sound true else if n = 0 then .sound false else .here .unreadableFlag

def asFlag : Value → Verdict Bool
  | flag b => .sound b
  | whole n => if isLong n then flagOfWhole n else .here .notFlag
  | real x => match wholeOfReal x with
    | .sound n => flagOfWhole n
    | .faulty _ => .here .notFlag
  | text s => flagOfText s
  | torn => .here .unreadableFlag
  | bytes octets =>
      match String.fromUTF8? ⟨octets.toArray⟩ with
      | some s => flagOfText s
      | none => .here .unreadableFlag
  | _ => .here .notFlag

def asChoice (choices : List (String × α)) : Value → Verdict α
  | text s =>
      match choices.lookup s with
      | some a => .sound a
      | none => .here (.notOneOf (choices.map Prod.fst))
  | _ => .here (.notOneOf (choices.map Prod.fst))

def orNull (f : Value → Verdict α) : Value → Verdict (Option α)
  | null => .sound none
  | v => (f v).map some

def asList (f : Value → Verdict α) : Value → Verdict (List α)
  | list items => Verdict.all f 0 items
  | bag items => Verdict.all f 0 items
  | _ => .here .notList

/-- The step towards the value under a key; keys that are neither names nor numbers of moderate
size are named by their literals. -/
def keyStep : Value → Step
  | text s => .name s
  | flag b => .position (if b then 1 else 0)
  | whole n => if isLong n then .position n else .name (toString n)
  | v => .name v.literal

def rowVerdicts (f : Value → Verdict α) :
    List (Value × Value) → Verdict (List (String × α))
  | [] => .sound []
  | (k, v) :: rest =>
      let key := (k.asText.within (.name "[key]")).within (keyStep k)
      let value := (f v).within (keyStep k)
      ((key.map Prod.mk).seq value).map List.cons |>.seq (rowVerdicts f rest)

def asRecord (f : Value → Verdict α) : Value → Verdict (List (String × α))
  | record rows => rowVerdicts f rows
  | _ => .here .notRecord

def field (name : String) (f : Value → Verdict α) (rows : List (Value × Value)) : Verdict α :=
  ((match findRow? name rows with
    | none => .here .missing
    | some v => f v) : Verdict α).within (.name name)

def fieldOr (name : String) (default : α) (f : Value → Verdict α)
    (rows : List (Value × Value)) : Verdict α :=
  match findRow? name rows with
  | none => .sound default
  | some v => (f v).within (.name name)

/-- A record of a given shape; rows that the shape does not name are ignored. -/
def shaped (shape : String) (f : List (Value × Value) → Verdict α) : Value → Verdict α
  | record rows => f rows
  | _ => .here (.notShaped shape)

end Value

end EventOperator
