import HugePools.Directory
import HugePools.Main
import HugePools.Proofs.Results
import HugePools.Proofs.Selection
import HugePools.Proofs.Expansion
import HugePools.Proofs.Geometry
import HugePools.Proofs.Emission
import HugePools.Proofs.IntervalRows
import HugePools.Proofs.Counting
import HugePools.Proofs.Reload
import HugePools.Proofs.Restoration
import HugePools.Proofs.BareText
import HugePools.Proofs.Commands
import HugePools.Proofs.Conversion
import HugePools.Proofs.Reservations
import HugePools.Proofs.TableRoundTrip
import HugePools.Proofs.Acceptance
import HugePools.Proofs.RunText
import HugePools.Proofs.CanonicalForm
import HugePools.Proofs.DecodedSets
import HugePools.Proofs.RepeatedIndices
import HugePools.Proofs.GrownSets
import HugePools.Proofs.Meaning
import HugePools.Proofs.RowOrder
import HugePools.Proofs.ConvertOutcome
import HugePools.Proofs.ListGrammar
import HugePools.Proofs.ExpandedSets
import HugePools.Proofs.InspectOutcome
import HugePools.Proofs.SettingsText
import HugePools.Proofs.Lookup
import HugePools.Proofs.SizeGrammar
import HugePools.Proofs.FirstViolation
import HugePools.Proofs.OversizedPools
import HugePools.Proofs.RowSelection
import HugePools.Proofs.RegionPages
import HugePools.Proofs.RegionContents
import HugePools.Proofs.Insulation
import HugePools.Proofs.NamedCells
import HugePools.Proofs.NamedColumns
import HugePools.Proofs.SizeText
import HugePools.Proofs.Warnings
import HugePools.Proofs.CappedCounts
