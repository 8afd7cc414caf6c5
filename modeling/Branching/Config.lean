import Branching.Condition.Mode
import Branching.Value.Sorting

/-!
# Engine configuration

Four settings govern reading and rendering templates: the header mode, whether
undefined variables are errors, the most comparisons a header may chain, and
the deepest nesting of conditionals. Both limits are positive; the type holds
that as a proof.

A configuration is built from a mapping (`Config.ofMapping`): unknown keys are
refused first, all of them named in the data order of values (`Value.Order`); then the mode, the switch and
the two limits are checked in that order, and last the limits' signs. Overrides
replace the settings they give and are checked the same way.
-/

namespace Branching

/-- The settings of the engine. -/
structure Config where
  errorMode : Mode := .lax
  strictVariables : Bool := false
  maxChainLength : Int := 50
  maxNestingDepth : Int := 100
  chainLength_pos : 0 < maxChainLength := by decide
  nestingDepth_pos : 0 < maxNestingDepth := by decide

namespace Config

/-- A configuration from its four settings, if both limits are positive. -/
def make (mode : Mode) (strict : Bool) (chain nesting : Int) : Except Error Config :=
  if h₁ : 0 < chain then
    if h₂ : 0 < nesting then
      .ok { errorMode := mode, strictVariables := strict, maxChainLength := chain,
            maxNestingDepth := nesting, chainLength_pos := h₁, nestingDepth_pos := h₂ }
    else .error (.config (.notPositive "max_nesting_depth"))
  else .error (.config (.notPositive "max_chain_length"))

/-- The names of the settings. -/
def fieldNames : List String :=
  ["error_mode", "strict_variables", "max_chain_length", "max_nesting_depth"]

/-- An integer setting read from a mapping value. -/
def intSetting (field : String) : Value → Except Error Int
  | .int n => .ok n
  | v => .error (Error.writing [v] (.config (.expectedInt field v)))

/-- Keys of a mapping that name no setting, sorted in the data order and
given by their display texts; sorting keys that have no common order fails. -/
def unknownKeys (entries : List (Value × Value)) : Except Error (List String) := do
  let isField (k : Value) : Bool := fieldNames.any fun f => Value.equals k (.str f)
  let remaining := Value.remainingKeyOrder (entries.map Prod.fst) isField
  (← Value.sortValues remaining).mapM Value.tryDisplay

/-- The switch setting read from a mapping value. -/
def boolSetting : Value → Except Error Bool
  | .bool b => .ok b
  | v => .error (Error.writing [v] (.config (.expectedBool v)))

/-- A setting of a mapping read by `read`, or `default` when absent. -/
def setting {α : Type} (entries : List (Value × Value)) (name : String) (default : α)
    (read : Value → Except Error α) : Except Error α :=
  match Value.lookup? entries (.str name) with
  | some v => read v
  | none => .ok default

/-- A configuration from a mapping of settings. -/
def ofMapping (entries : List (Value × Value)) : Except Error Config :=
  match unknownKeys entries with
  | .error e => .error e
  | .ok unknown =>
  if !unknown.isEmpty then .error (.config (.unknownKeys unknown)) else
  match setting entries "error_mode" .lax Mode.ofValue with
  | .error e => .error e
  | .ok mode =>
    match setting entries "strict_variables" false boolSetting with
    | .error e => .error e
    | .ok strict =>
      match setting entries "max_chain_length" 50 (intSetting "max_chain_length") with
      | .error e => .error e
      | .ok chain =>
        match setting entries "max_nesting_depth" 100 (intSetting "max_nesting_depth") with
        | .error e => .error e
        | .ok nesting => make mode strict chain nesting

/-- Settings to replace; `none` keeps the current one. -/
structure Overrides where
  errorMode : Option Value := none
  strictVariables : Option Bool := none
  maxChainLength : Option Int := none
  maxNestingDepth : Option Int := none

/-- The configuration with the given settings replaced. -/
def withOverrides (c : Config) (o : Overrides) : Except Error Config :=
  match o.errorMode.map Mode.ofValue |>.getD (.ok c.errorMode) with
  | .error e => .error e
  | .ok mode =>
    make mode (o.strictVariables.getD c.strictVariables) (o.maxChainLength.getD c.maxChainLength)
      (o.maxNestingDepth.getD c.maxNestingDepth)

end Config

end Branching
