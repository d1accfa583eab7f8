import TpcTrigger.Decimal.Layout
import TpcTrigger.Synthetic.Settings

/-! # Texts about synthetic settings -/

namespace TpcTrigger.SyntheticError

/-- The text shown for settings that cannot be used. -/
def message : SyntheticError → String
  | pedestalRange low high => s!"Generator pedestal range {low}..={high} is empty"
  | probability p =>
      s!"Generator pulse probability {DecimalLayout.plain.write p} is invalid; must be in [0, 1]"
  | sampleRange peak => s!"Generator settings can reach ADC value {peak}, above {maxSample}"

end TpcTrigger.SyntheticError
