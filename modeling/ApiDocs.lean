import ApiDocs.Main
import ApiDocs.Proofs.Comment.Relayout
import ApiDocs.Proofs.Index.Naming
import ApiDocs.Proofs.Index.Replay
import ApiDocs.Proofs.Report.Docs
import ApiDocs.Proofs.Report.Records
import ApiDocs.Proofs.Report.RoundTrip
import ApiDocs.Proofs.Report.Totality
import ApiDocs.Proofs.Index.Nesting
import ApiDocs.Proofs.Index.Coverage
import ApiDocs.Proofs.Index.MemberTypes
import ApiDocs.Proofs.Index.Commented
import ApiDocs.Proofs.Index.Erasure
import ApiDocs.Proofs.Index.CommentedMethod
import ApiDocs.Proofs.Index.TypeVariables
import ApiDocs.Proofs.Index.AnnotationNames
import ApiDocs.Proofs.Index.Dimensions
import ApiDocs.Proofs.Comment.Decomposition
import ApiDocs.Proofs.Comment.Closing
import ApiDocs.Proofs.Comment.Appending
import ApiDocs.Proofs.Report.Tags
import ApiDocs.Proofs.Syntax.Spans
import ApiDocs.Proofs.Syntax.Preceding
import ApiDocs.Proofs.Comment.Margins
import ApiDocs.Proofs.Report.Indentation
