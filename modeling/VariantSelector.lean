import VariantSelector.Main
import VariantSelector.Proofs.Resolution.Accounting
import VariantSelector.Proofs.Resolution.Stack
import VariantSelector.Proofs.Selector.NormalForm
import VariantSelector.Proofs.Css.Reading
import VariantSelector.Proofs.Resolution.Respelling
import VariantSelector.Proofs.Bracketed.Decoding
import VariantSelector.Proofs.Variant.Fragment
import VariantSelector.Proofs.Css.Selector
import VariantSelector.Proofs.Css.Compound
import VariantSelector.Proofs.Resolution.Rendering
import VariantSelector.Proofs.Resolution.Collapsing
import VariantSelector.Proofs.Resolution.Restoring
import VariantSelector.Proofs.Config.Document
import VariantSelector.Proofs.Notice.History
import VariantSelector.Proofs.Notice.Labels
import VariantSelector.Proofs.Variant.Elements
import VariantSelector.Proofs.CommandLine.Arguments
import VariantSelector.Proofs.CommandLine.Runs
import VariantSelector.Proofs.Resolution.Exhausted
import VariantSelector.Proofs.Resolution.Slots
import VariantSelector.Proofs.Variant.Marker
import VariantSelector.Proofs.Bracketed.Positions
import VariantSelector.Proofs.Bracketed.Scans
import VariantSelector.Proofs.Bracketed.Writing
import VariantSelector.Proofs.Variant.Declining
import VariantSelector.Proofs.Bracketed.Counting
import VariantSelector.Proofs.Variant.Suggesting
import VariantSelector.Proofs.Config.Replacing
import VariantSelector.Proofs.Pseudo.Lookup
