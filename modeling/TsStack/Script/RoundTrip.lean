import TsStack.Script.Edits

/-
  Parsing and serializing scripts are inverse to each other.
-/

-- Chunks the Writers Build

open List

namespace TsStack

open LittleEndian

namespace ScriptEdit

end ScriptEdit

end TsStack
