import BlockScript.Vocabulary.Operation

/-!
# Operations on variables

Setting, changing, showing and hiding variables.
-/

namespace BlockScript

namespace Vocabulary

/-- These operations, in the order in which they are tried. -/
def data : List Operation :=
  [.of "data_setvariableto" .data .command "set [VARIABLE v] to (VALUE)"
      [⟨"VARIABLE", .variableName⟩, ⟨"VALUE", .text⟩],
    .of "data_changevariableby" .data .command "change [VARIABLE v] by (VALUE)"
      [⟨"VARIABLE", .variableName⟩, ⟨"VALUE", .number⟩],
    .of "data_showvariable" .data .command "show variable [VARIABLE v]" [⟨"VARIABLE", .variableName⟩],
    .of "data_hidevariable" .data .command "hide variable [VARIABLE v]" [⟨"VARIABLE", .variableName⟩]]

end Vocabulary

end BlockScript
