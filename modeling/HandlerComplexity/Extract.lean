import HandlerComplexity.Log
import HandlerComplexity.Policy
import HandlerComplexity.Store

/-!
# Measuring one class
-/

namespace HandlerComplexity

/-- Why a class is not measured. -/
inductive Failure
  | malformed (m : Malformed)
  | record (e : RecordError)
  /-- The policy could not decide. This is a fault of the policy and not of the class. -/
  | policy (e : PolicyError)
deriving DecidableEq, Repr

namespace Failure

/-- Whether the failure concerns the class alone, so that others can still be measured. -/
def isOfClass : Failure → Bool
  | malformed _ => true
  | record (.duplicate _ _) => true
  | _ => false

def message : Failure → String
  | malformed m => m.message
  | record e => e.message
  | policy .notMapping => "eligibility section is not a mapping"
  | policy .notCollection => "exclude_patterns is not a collection"
  | policy .notText => "exclude pattern is not a text"

end Failure

def skippedMessage (u : ClassUnit) : String := "Skipping ineligible class " ++ u.qualifiedName

/-- Decides which classes an extractor measures. -/
abbrev Eligibility := ClassUnit → Except PolicyError Bool

/-- The measure of a class, none if the class is not eligible, and what is logged about it. -/
def extract (eligibility : Eligibility) (u : ClassUnit) : Log × Except Failure (Option Measure) :=
  match eligibility u with
  | .error e => ([], .error (.policy e))
  | .ok false => ([⟨.debug, .scoring, skippedMessage u⟩], .ok none)
  | .ok true =>
    match u.score with
    | .error m => ([], .error (.malformed { m with owner := some u.qualifiedName }))
    | .ok n =>
      let value := Value.ofScore n
      ([⟨.debug, .scoring,
          Metric.hcc.name ++ " " ++ u.qualifiedName ++ " = " ++ value.toScalar.shown⟩],
        match Measure.make .hcc value with
        | .error e => .error (.record e)
        | .ok m => .ok (some m))

end HandlerComplexity
