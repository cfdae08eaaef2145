import Greybus.Storage.Session
import Greybus.Proofs.Blob.Walk
import Greybus.Proofs.Source.Sections
import Greybus.Proofs.Layout.Relevance
import Greybus.Proofs.Layout.RoundTrip
import Greybus.Proofs.Layout.WellFormed
import Greybus.Proofs.Layout.Defects
import Greybus.Proofs.Storage.Replacement
import Greybus.Proofs.Conversion.Effect
import Greybus.Proofs.Blob.Size
import Greybus.Proofs.Header.Grammar
import Greybus.Proofs.Layout.References
import Greybus.Proofs.Table.Insertion
import Greybus.Proofs.Layout.Emission
import Greybus.Proofs.Layout.Growth
import Greybus.Proofs.Conversion.Exit
import Greybus.Proofs.Header.Printing
import Greybus.Proofs.Header.Joining
import Greybus.Proofs.Devicetree.Classification
import Greybus.Proofs.Devicetree.Numbers
import Greybus.Proofs.Layout.Parents
import Greybus.Proofs.Conversion.Extension
import Greybus.Proofs.Layout.Width
