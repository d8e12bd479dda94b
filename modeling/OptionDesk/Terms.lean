import OptionDesk.Curve.Rates
import OptionDesk.Volatility.Variance

/-!
# Terms of an option

The terms of a plain option, and of one whose strike is fixed at a later date as a multiple of the
underlying. Clients fill the fields with any values; `Terms.validate` names the first that does not
fit. A field keeps the form in which it was given.
-/

namespace OptionDesk

structure Terms (α : Type) where
  form : TermForm
  optionType : Value α
  underlying : Value α
  strike : Value α
  dividendCurve : Value α
  riskFreeCurve : Value α
  volSurface : Value α
  exerciseType : Value α
  stoppingTimes : Value α
  maturity : Value α
  moneyness : Value α
  resetDate : Value α

namespace TermField

/-- The fields of a plain option, in order. -/
def plain : List TermField := [optionType, underlying, strike, dividendCurve, riskFreeCurve,
  volSurface, exerciseType, stoppingTimes, maturity]

/-- The fields that terms of a form have, in order. -/
def ofForm : TermForm → List TermField
  | .plain => plain
  | .forward => plain ++ [moneyness, resetDate]
  | .other => []

def name : TermField → String
  | optionType => "option_type"
  | underlying => "underlying"
  | strike => "strike"
  | dividendCurve => "dividend_curve"
  | riskFreeCurve => "risk_free_curve"
  | volSurface => "vol_surface"
  | exerciseType => "exercise_type"
  | stoppingTimes => "stopping_times"
  | maturity => "maturity"
  | moneyness => "moneyness"
  | resetDate => "reset_date"

def ofName? (form : TermForm) (name : String) : Option TermField :=
  (ofForm form).find? fun f => f.name == name

end TermField

namespace Terms

variable {α : Type}

/-- Terms in which nothing is filled in; exercise is European unless something else is said. -/
def blank (form : TermForm) : Terms α where
  form
  optionType := .null
  underlying := .null
  strike := .null
  dividendCurve := .null
  riskFreeCurve := .null
  volSurface := .null
  exerciseType := .exercise .european
  stoppingTimes := .list []
  maturity := .null
  moneyness := .null
  resetDate := .null

def get (t : Terms α) : TermField → Value α
  | .optionType => t.optionType
  | .underlying => t.underlying
  | .strike => t.strike
  | .dividendCurve => t.dividendCurve
  | .riskFreeCurve => t.riskFreeCurve
  | .volSurface => t.volSurface
  | .exerciseType => t.exerciseType
  | .stoppingTimes => t.stoppingTimes
  | .maturity => t.maturity
  | .moneyness => t.moneyness
  | .resetDate => t.resetDate

def set (t : Terms α) (field : TermField) (v : Value α) : Terms α :=
  match field with
  | .optionType => { t with optionType := v }
  | .underlying => { t with underlying := v }
  | .strike => { t with strike := v }
  | .dividendCurve => { t with dividendCurve := v }
  | .riskFreeCurve => { t with riskFreeCurve := v }
  | .volSurface => { t with volSurface := v }
  | .exerciseType => { t with exerciseType := v }
  | .stoppingTimes => { t with stoppingTimes := v }
  | .maturity => { t with maturity := v }
  | .moneyness => { t with moneyness := v }
  | .resetDate => { t with resetDate := v }

@[simp] theorem get_set_self (t : Terms α) (f : TermField) (v : Value α) :
    (t.set f v).get f = v := by
  cases f <;> rfl

theorem get_set_of_ne (t : Terms α) {f g : TermField} (v : Value α) (h : f ≠ g) :
    (t.set f v).get g = t.get g := by
  cases f <;> cases g <;> first | rfl | exact absurd rfl h

@[simp] theorem form_set (t : Terms α) (f : TermField) (v : Value α) :
    (t.set f v).form = t.form := by
  cases f <;> rfl

/-- Names that are no fields of the terms, in order. -/
def unknownNames (form : TermForm) (names : List String) : List String :=
  (names.filter fun n => (TermField.ofName? form n).isNone).mergeSort (· ≤ ·)

/-- Set the field of a name, if the terms have one. -/
def assign (t : Terms α) (p : String × Value α) : Terms α :=
  match TermField.ofName? t.form p.1 with
  | some f => t.set f p.2
  | none => t

/-- Set several fields at once; nothing is set if one of the names is unknown. -/
def update (t : Terms α) (fields : List (String × Value α)) : Except TermError (Terms α) :=
  match unknownNames t.form (fields.map Prod.fst) with
  | [] => .ok (fields.foldl assign t)
  | names => .error (.unknownFields names)

/-- New terms with some fields filled in; all of the names must be known. -/
def ofFields (form : TermForm) (fields : List (String × Value α)) : Outcome α (Terms α) :=
  match (blank form).update fields with
  | .ok t => pure t
  | .error _ => .fail (.misuse .unknownName)

variable [Scalar α]

def refuse {β : Type} (t : Terms α) (e : TermError) : Outcome α β := .fail (.terms t.form e)

def demand (t : Terms α) (p : Prop) [Decidable p] (e : TermError) : Outcome α Unit :=
  .require p (.terms t.form e)

/-- The number that a field must hold: given, readable and finite. -/
def number (t : Terms α) (field : TermField) : Outcome α α :=
  match t.get field with
  | .null => t.refuse (.noNumber field)
  | v => match v.read with
    | .error _ => t.refuse (.notNumeric field)
    | .ok x => if Scalar.isFinite x then pure x else t.refuse (.notFinite field)

def checkOptionType (t : Terms α) : Outcome α Unit :=
  match t.optionType with
  | .null => t.refuse .noOptionType
  | .optionType _ => pure ()
  | v => t.refuse (.notOptionType v.shape)

/-- The style of exercise, which always has a value. -/
def exercise (t : Terms α) : Outcome α ExerciseType :=
  match t.exerciseType with
  | .exercise e => pure e
  | v => t.refuse (.notExerciseType v.shape)

def checkCurve (t : Terms α) (field : TermField) : Outcome α Unit :=
  match t.get field with
  | .null => t.refuse (.noCurve field)
  | .curve _ => pure ()
  | v => t.refuse (.notCurve field v.shape)

def checkVolatility (t : Terms α) : Outcome α Unit :=
  match t.volSurface with
  | .null => t.refuse .noVolatility
  | .volatility _ => pure ()
  | v => t.refuse (.notVolatility v.shape)

def checkMaturity (t : Terms α) : Outcome α Unit :=
  match t.maturity with
  | .null => t.refuse .noMaturity
  | .dateTime _ => pure ()
  | v => t.refuse (.maturityNotDateTime v.shape)

/-- Years from the reference date of a structure to a date, under its day count. -/
def yearsFrom (termStructure date : Value α) : Outcome α α :=
  match termStructure with
  | .curve c => c.yearFraction (.dateTime c.reference) date
  | .volatility v => v.yearFraction (.dateTime v.reference) date
  | _ => .fail (.misuse .missingMember)

/-- Years from the reference date of the risk-free curve to maturity. -/
def maturityTime (t : Terms α) : Outcome α α := yearsFrom t.riskFreeCurve t.maturity

/-- Years from the reference date of the risk-free curve to the reset date. -/
def resetTime (t : Terms α) : Outcome α α := yearsFrom t.riskFreeCurve t.resetDate

/-- The strike may be left out of terms that fix it later. -/
def checkStrike (t : Terms α) : Outcome α Unit :=
  match t.form, t.strike with
  | .forward, .null => pure ()
  | _, _ => do
    let strike ← t.number .strike
    t.demand (¬strike < 0) .strikeNegative

/-- The checks that all options share. -/
def validatePlain (t : Terms α) : Outcome α Unit := do
  t.checkOptionType
  let exercise ← t.exercise
  let underlying ← t.number .underlying
  t.demand (¬underlying ≤ 0) .underlyingNotPositive
  t.checkStrike
  t.checkCurve .dividendCurve
  t.checkCurve .riskFreeCurve
  t.checkVolatility
  t.checkMaturity
  let time ← t.maturityTime
  t.demand (¬time ≤ 0) .maturityNotAfterReference
  t.demand (exercise = .european ∨ t.stoppingTimes.isSet) (.noStoppingTimes exercise)

def checkResetDate (t : Terms α) : Outcome α Unit :=
  match t.resetDate with
  | .null => t.refuse .noResetDate
  | .dateTime _ => pure ()
  | v => t.refuse (.resetDateNotDateTime v.shape)

/-- The checks on a strike that is fixed later. -/
def validateReset (t : Terms α) : Outcome α Unit := do
  let moneyness ← t.number .moneyness
  t.demand (¬moneyness ≤ 0) .moneynessNotPositive
  t.checkResetDate
  let reset ← t.resetTime
  t.demand (¬reset < 0) .resetTimeNegative
  let maturity ← t.maturityTime
  t.demand (¬maturity < reset) .resetAfterMaturity

/-- Refuse the first field that does not fit. -/
def validate (t : Terms α) : Outcome α Unit :=
  match t.form with
  | .plain => t.validatePlain
  | .forward => do
    t.validatePlain
    t.validateReset
  | .other => pure ()

end Terms

end OptionDesk
