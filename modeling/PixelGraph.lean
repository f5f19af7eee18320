import PixelGraph.Attribute.Slots
import PixelGraph.Graph.Construction
import PixelGraph.Json.Form
import PixelGraph.Main
import PixelGraph.Proofs.Graph.Replay
import PixelGraph.Proofs.Graph.Dump
import PixelGraph.Proofs.Conversion.Completion
import PixelGraph.Proofs.Conversion.Scaling
import PixelGraph.Proofs.Conversion.Forms
import PixelGraph.Proofs.Graph.Runs
import PixelGraph.Proofs.Graph.Rebuild
import PixelGraph.Proofs.Graph.Loading
import PixelGraph.Proofs.Graph.Outcome
import PixelGraph.Proofs.Graph.Independence
import PixelGraph.Proofs.Json.Form
import PixelGraph.Proofs.Graph.Dataflow
import PixelGraph.Proofs.Attribute.Spelling
import PixelGraph.Proofs.Shape.Axis
import PixelGraph.Proofs.Attribute.Reading
import PixelGraph.Proofs.Attribute.Map
import PixelGraph.Proofs.Attribute.RoundTrip
import PixelGraph.Proofs.Attribute.Canonical
import PixelGraph.Proofs.Shape.Update
import PixelGraph.Proofs.Shape.Extents
