import ComponentApi.Component
import ComponentApi.Json.Reader
import ComponentApi.Options.Reading
import ComponentApi.Source.Reading
import ComponentApi.Session
import ComponentApi.Proofs.Catalog.Distinct
import ComponentApi.Proofs.Report.Projection
import ComponentApi.Proofs.Catalog.Grouping
import ComponentApi.Proofs.Markup.Sections
import ComponentApi.Proofs.Markup.Fragment
import ComponentApi.Proofs.Markup.RoundTrip
import ComponentApi.Proofs.Markup.Grammar
import ComponentApi.Proofs.Markup.Spans
import ComponentApi.Proofs.Markup.Adoption
import ComponentApi.Proofs.Report.Parallel
import ComponentApi.Proofs.Script.Bindings
import ComponentApi.Proofs.Report.Shift
import ComponentApi.Proofs.Markup.Sites
import ComponentApi.Proofs.Report.Locations
import ComponentApi.Proofs.Markup.Continuation
import ComponentApi.Proofs.Session.Dispatchers
import ComponentApi.Proofs.Script.Dispatches
import ComponentApi.Proofs.Report.Failures
import ComponentApi.Proofs.Catalog.Members
import ComponentApi.Proofs.Catalog.Landing
import ComponentApi.Proofs.Report.Constants
import ComponentApi.Proofs.Names.Resolution
import ComponentApi.Proofs.Script.Shadowing
import ComponentApi.Proofs.Session.Forwarding
import ComponentApi.Proofs.Script.FreeNames
import ComponentApi.Proofs.Text.Lines
import ComponentApi.Proofs.Comment.Styles
import ComponentApi.Proofs.Comment.RoundTrip
import ComponentApi.Proofs.TypeExpr.Splitting
import ComponentApi.Proofs.TypeExpr.RoundTrip
import ComponentApi.Proofs.Script.Scopes
import ComponentApi.Proofs.Script.Completeness
import ComponentApi.Proofs.TypeExpr.Arrows
import ComponentApi.Proofs.TypeExpr.Annotations
import ComponentApi.Proofs.Comment.Descriptions
import ComponentApi.Proofs.Comment.Params
import ComponentApi.Proofs.Script.LeadingComments
import ComponentApi.Proofs.Script.Params
import ComponentApi.Proofs.Report.Inline
import ComponentApi.Proofs.Source.Attributes
import ComponentApi.Proofs.Document.RoundTrip
