import Gherkin.Main
import Gherkin.Proofs.Batch.Failures
import Gherkin.Proofs.Descent.Checks
import Gherkin.Proofs.Disk.Discovery
import Gherkin.Proofs.DocString.Verbatim
import Gherkin.Proofs.Json.Listings
import Gherkin.Proofs.Line.Patterns
import Gherkin.Proofs.Line.Spacing
import Gherkin.Proofs.Listing.Spelling
import Gherkin.Proofs.Listing.Steps
import Gherkin.Proofs.Outline.Failing
import Gherkin.Proofs.Outline.Instances
import Gherkin.Proofs.Placeholder.Residue
import Gherkin.Proofs.Rendering.Nesting
import Gherkin.Proofs.RoundTrip.FixedPoint
import Gherkin.Proofs.Text.Escaped
