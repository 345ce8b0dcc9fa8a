import IncludeForest.Main
import IncludeForest.Proofs.Text.Boundaries
import IncludeForest.Proofs.Scan.Accounting
import IncludeForest.Proofs.Scan.Deletion
import IncludeForest.Proofs.Scan.Filtering
import IncludeForest.Proofs.Scan.Independence
import IncludeForest.Proofs.Scan.RoundTrip
import IncludeForest.Proofs.Forest.Matches
import IncludeForest.Proofs.Forest.Remains
import IncludeForest.Proofs.Scan.Normalization
import IncludeForest.Proofs.Export.Faithful
import IncludeForest.Proofs.Scan.LineEnds
import IncludeForest.Proofs.Forest.Hits
import IncludeForest.Proofs.Scan.Chains
import IncludeForest.Proofs.Log.Announcements
import IncludeForest.Proofs.View.Folding
import IncludeForest.Proofs.View.Styles
import IncludeForest.Proofs.View.ErasedNames
import IncludeForest.Proofs.Settings.Keys
import IncludeForest.Proofs.Pattern.Toolchain
import IncludeForest.Proofs.Log.FilteredNotes
import IncludeForest.Proofs.CommandLine.AllOrNothing
