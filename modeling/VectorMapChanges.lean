import VectorMapChanges.Matching.Partition
import VectorMapChanges.Matching.Resolution
import VectorMapChanges.Matching.Locality
import VectorMapChanges.Matching.Mirror
import VectorMapChanges.Matching.Determinism
import VectorMapChanges.Matching.SelfComparison
import VectorMapChanges.Matching.AllPairs
import VectorMapChanges.Matching.MetricLaws
import VectorMapChanges.Matching.Drawn
import VectorMapChanges.Matching.Provenance
import VectorMapChanges.Matching.ComponentLoops
import VectorMapChanges.Matching.Drift
import VectorMapChanges.Dags.IngestSnapshots
import VectorMapChanges.Dags.BuildChangesets
import VectorMapChanges.Publish.Absence
import VectorMapChanges.Publish.Interleaving
import VectorMapChanges.Publish.Retries
import VectorMapChanges.Ingestion.PointInTime
import VectorMapChanges.Ingestion.Extraction
import VectorMapChanges.Storage.Keys
import VectorMapChanges.Publish.Publishable
import VectorMapChanges.Publish.Acceptance
import VectorMapChanges.Publish.BeforeAfter
import VectorMapChanges.Publish.Promoted
import VectorMapChanges.Publish.Accounting
import VectorMapChanges.Publish.Transactions
import VectorMapChanges.Db.Upserts
import VectorMapChanges.Web.Filter
import VectorMapChanges.Web.Selection
import VectorMapChanges.Web.Turns
import VectorMapChanges.Web.Timeline
import VectorMapChanges.Web.IntervalRows
import VectorMapChanges.Web.SelectionOverlay
import VectorMapChanges.System.Consistency
import VectorMapChanges.Api.Lookups
import VectorMapChanges.Api.BuildingTiles
import VectorMapChanges.System.Served
import VectorMapChanges.System.Session
import VectorMapChanges.System.Panel
import VectorMapChanges.System.Intervals
import VectorMapChanges.System.Lasting
