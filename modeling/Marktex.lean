import Marktex.Editor
import Marktex.Latex.Render
import Marktex.Main
import Marktex.Proofs.Command.Machine
import Marktex.Proofs.Command.Returns
import Marktex.Proofs.Document.Acceptance
import Marktex.Proofs.Document.Delimited
import Marktex.Proofs.Document.Diagnostics
import Marktex.Proofs.Document.LineEnds
import Marktex.Proofs.Document.Listing
import Marktex.Proofs.Document.Packing
import Marktex.Proofs.Document.Rejection
import Marktex.Proofs.Document.Session
import Marktex.Proofs.Document.Tiling
import Marktex.Proofs.File.Writing
import Marktex.Proofs.Latex.Alignment
import Marktex.Proofs.Latex.Balance
import Marktex.Proofs.Latex.ItemList
import Marktex.Proofs.Latex.OptionalArguments
import Marktex.Proofs.Latex.PackedTasks
import Marktex.Proofs.Latex.Standalone
import Marktex.Proofs.Latex.Table
import Marktex.Proofs.Token.Clean
import Marktex.Proofs.Token.LineStarts
import Marktex.Proofs.Token.Locality
import Marktex.Proofs.Token.Runs
import Marktex.Proofs.Token.Shape
import Marktex.Proofs.Token.Snippets
import Marktex.Proofs.Token.Steps
import Marktex.Proofs.Token.Targets
import Marktex.Proofs.Token.Tiling
