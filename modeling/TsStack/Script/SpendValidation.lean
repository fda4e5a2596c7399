import TsStack.Script.Multisig
import TsStack.Script.SpendInvariant

/-
  `validateJavaScript` as a whole: it ends, what it keeps,
  and what a spend it accepts has passed.
-/

namespace TsStack.Spend

open StateProgram

variable {params : SpendParams} {scripts : SpendScripts} {spend after : Spend}
  {lock : SpendScript → Prop} {contract : Contract SpendParams Spend}

-- What Validation Keeps

/- No conditional is open and the alt stack is empty. -/
structure Closed (spend : Spend) : Prop where
  ifStack : spend.ifStack = []
  elseStack : spend.elseStack = []
  altStack : spend.altStack = []

end TsStack.Spend
