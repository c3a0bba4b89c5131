import StyleBundle.Main
import StyleBundle.Proofs.Animations
import StyleBundle.Proofs.Cascade
import StyleBundle.Proofs.ClassName
import StyleBundle.Proofs.Commas
import StyleBundle.Proofs.Conditions
import StyleBundle.Proofs.Containers
import StyleBundle.Proofs.Context
import StyleBundle.Proofs.DarkTheme
import StyleBundle.Proofs.Decoding
import StyleBundle.Proofs.Deferral
import StyleBundle.Proofs.Dispatch
import StyleBundle.Proofs.Easings
import StyleBundle.Proofs.Failure
import StyleBundle.Proofs.Fallback
import StyleBundle.Proofs.Flags
import StyleBundle.Proofs.Groups
import StyleBundle.Proofs.Isolation
import StyleBundle.Proofs.Layers
import StyleBundle.Proofs.Merge
import StyleBundle.Proofs.Progress
import StyleBundle.Proofs.Relocations
import StyleBundle.Proofs.Serialising
import StyleBundle.Proofs.Shorthands
import StyleBundle.Proofs.Specificity
import StyleBundle.Proofs.Steps
import StyleBundle.Proofs.Structured
import StyleBundle.Proofs.Suppression
import StyleBundle.Proofs.SyntaxTree
import StyleBundle.Proofs.Transitions
import StyleBundle.Proofs.Variables
