import Normative.Main
import Normative.Proofs.Enrichment.Exhaustion
import Normative.Proofs.Enrichment.Instantiation
import Normative.Proofs.Enrichment.Interleaving
import Normative.Proofs.Program.Reference
import Normative.Proofs.Schema.History
import Normative.Proofs.Schema.RoundTrip
import Normative.Proofs.Program.Renaming
import Normative.Proofs.Program.Clash
import Normative.Proofs.Program.Stability
import Normative.Proofs.Transpile.Outcome
import Normative.Proofs.Token.Noise
import Normative.Proofs.Schema.Persistence
import Normative.Proofs.Schema.Rearrangement
import Normative.Proofs.Program.Balance
import Normative.Proofs.Text.Alignment
import Normative.Proofs.Text.Distance
import Normative.Proofs.Document.Spelling
import Normative.Proofs.Document.Writing
import Normative.Proofs.Document.Encoding
import Normative.Proofs.Document.RoundTrip
import Normative.Proofs.Program.Breakage
import Normative.Proofs.Program.Containment
import Normative.Proofs.Configuration.Suggestion
import Normative.Proofs.Corpus.Inversion
import Normative.Proofs.Text.Letter
import Normative.Proofs.Text.Sigma
import Normative.Proofs.Configuration.Validity
import Normative.Proofs.Configuration.Coverage
import Normative.Proofs.Corpus.Recording
import Normative.Proofs.Corpus.Annotation
import Normative.Proofs.Program.Joining
import Normative.Proofs.Token.Extent
import Normative.Proofs.Document.Reading
import Normative.Proofs.OrderedMap.History
import Normative.Proofs.Token.LetterCase
import Normative.Proofs.Identifier.Condensation
import Normative.Proofs.Identifier.Wellformed
import Normative.Proofs.Program.Polarity
