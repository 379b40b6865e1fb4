import Folio.Document.Source
import Folio.Element.Bench
import Folio.Session.Reading
import Folio.Session.Run
import Folio.Proofs.Composition.Analysis
import Folio.Proofs.Composition.Segmentation
import Folio.Proofs.Composition.Filling
import Folio.Proofs.Composition.TextTiling
import Folio.Proofs.Document.Lineage
import Folio.Proofs.Document.Links
import Folio.Proofs.Document.Subtree
import Folio.Proofs.Document.Visibility
import Folio.Proofs.Composition.Nesting
import Folio.Proofs.Document.MarkOrder
import Folio.Proofs.Document.Occurrences
import Folio.Proofs.Session.StoredMarks
import Folio.Proofs.Composition.Highlight
import Folio.Proofs.Composition.Stretches
import Folio.Proofs.Document.Forest
import Folio.Proofs.Document.Preorder
import Folio.Proofs.Session.Operations
import Folio.Proofs.Session.History
import Folio.Proofs.Session.Holders
import Folio.Proofs.Document.Reading
import Folio.Proofs.Session.Keys
import Folio.Proofs.Session.Identity
import Folio.Proofs.Session.Ends
import Folio.Proofs.Document.VisibleNodes
import Folio.Proofs.Document.ReadingOrder
import Folio.Proofs.Document.Places
import Folio.Proofs.Document.GreedySearch
import Folio.Proofs.Session.Walks
import Folio.Proofs.Session.Traversal
import Folio.Proofs.Session.Positions
import Folio.Proofs.Session.Legality
import Folio.Proofs.Table
import Folio.Proofs.Session.CacheHistory
import Folio.Proofs.Session.OwnCache
import Folio.Proofs.Element.Accounts
import Folio.Proofs.Element.Turnover
import Folio.Proofs.Session.Acts
import Folio.Proofs.Session.Circulation
import Folio.Proofs.Document.MostOccurrences
import Folio.Proofs.Document.Bodies
import Folio.Proofs.Session.Confinement
import Folio.Proofs.Session.ReadingPosition
import Folio.Proofs.Composition.CarriedLevel
import Folio.Proofs.Composition.Independence
import Folio.Proofs.Document.Kinship
import Folio.Proofs.Composition.HitHighlight
import Folio.Proofs.Text.Boundaries
import Folio.Proofs.Language.Canonical
import Folio.Proofs.Document.MarkNavigation
import Folio.Proofs.Session.CursorOrder
import Folio.Proofs.Composition.Resolution
import Folio.Proofs.Composition.EdgeBlanks
import Folio.Proofs.Composition.RunAnalysis
import Folio.Proofs.Session.Rebuilding
import Folio.Proofs.Session.Returns
import Folio.Proofs.Session.Stepping
