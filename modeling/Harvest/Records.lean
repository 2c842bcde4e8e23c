import Harvest.Item
import Harvest.Page
import Harvest.Pagination.Table
import Harvest.Request

namespace Harvest

open Config

def Kind.read (kind : Kind) (v : Value) : Checked Value :=
  match kind with
  | .endpointSettings =>
    (Endpoint.Settings.read v).map (Given.record Endpoint.Settings.members)
  | .endpointEntry => (Endpoint.Entry.read v).map (Given.record Endpoint.Entry.members)
  | .endpointTarget => (Endpoint.Target.read v).map (Given.record Endpoint.Target.members)
  | .resolvedEndpoint => (Endpoint.Resolved.read v).map (Given.record Endpoint.Resolved.members)
  | .call => (Call.read v).map (Given.record Call.members)
  | .page => (Page.read v).map (Given.record Page.members)
  | .candidate => (Candidate.read v).map (Given.record Candidate.members)
  | .item => (Item.read v).map (Given.record Item.members)
  | .transformation => (Transformation.read v).map (Given.record Transformation.members)
  | .request => (Request.read v).map (Given.record Request.members)
  | .resource => (Resource.read v).map (Given.record Resource.members)
  | .paginationEntry => (Pagination.Entry.read v).map (Given.record Pagination.Entry.members)

end Harvest
