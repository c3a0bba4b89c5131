import StyleBundle.Style.Build

/-!
# StyleBundle.Style.Block

The rules of a style block: one for its normal declarations and one for its important ones, in
this order, each only if there are such declarations. Both have the order number of the block.
-/

namespace StyleBundle

namespace StyleBlock

/-- The rule that some declarations of a block make, if there are any. -/
def rule? (ctx : BuildContext) (read : Declaration → List Instruction)
    (specificity : Specificity) (ds : List Declaration) : Option Draft :=
  if ds.isEmpty then none else some (buildRule ctx read specificity ds)

/-- The rules of a block, given its order number. -/
def rules (ctx : BuildContext) (read : Declaration → List Instruction) (order : Int)
    (b : StyleBlock) : Noted Error (List StyleRule) := do
  let base ← .ofExcept (Specificity.ofTiers 0 0 0 0 order)
  let drafts := (rule? ctx read base b.declarations).toList ++
    (rule? ctx read { base with important := 1 } b.important).toList
  .withNotes (drafts.flatMap (·.notes)) (drafts.map (·.rule))

end StyleBlock

end StyleBundle
