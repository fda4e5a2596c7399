import TsStack.Templates.MultiPushDrop

/-
  What decoding gives back of the fields and the keys that
  were locked.

  An empty field and a field of one zero byte are pushed by
  the same opcode, which the two templates read differently.
-/

-- Key Texts

open List

namespace TsStack

open PushDrop

variable (bytes : Bytes)

namespace MultiPushDrop

variable {isPublicKey : JsString → Except JsError Bool}

variable {key : JsString}

end MultiPushDrop

-- Fields That Return

open OP

namespace MultiPushDrop

variable {isPublicKey : JsString → Except JsError Bool}

end MultiPushDrop

-- Scripts That Return

namespace MultiPushDrop

variable {isPublicKey : JsString → Except JsError Bool}

variable {wallet : TemplateWallet}

end MultiPushDrop

-- Templates That Return

end TsStack
