import DocBase.Config.Json
import DocBase.Digest.Xxh3
import DocBase.Server.Connection
import DocBase.Text.ByteSize
import DocBase.Value.Hash
import DocBase.Proofs.Collection.Attach
import DocBase.Proofs.Collection.AccessPath
import DocBase.Proofs.Collection.Pages
import DocBase.Proofs.Collection.Assigned
import DocBase.Proofs.Collection.ReadBack
import DocBase.Proofs.Store.Equivalence
import DocBase.Proofs.Store.Recovery
import DocBase.Proofs.Collection.Conformance
import DocBase.Proofs.Json.Line
import DocBase.Proofs.Server.Response
import DocBase.Proofs.Action
import DocBase.Proofs.Collection.Twins
import DocBase.Proofs.Server.Request
import DocBase.Proofs.Server.Hosting
import DocBase.Proofs.Server.Reply
import DocBase.Proofs.Store.Disk
import DocBase.Proofs.Store.Driver
import DocBase.Proofs.Store.Alike
import DocBase.Proofs.Store.Backend
import DocBase.Proofs.Store.Location
import DocBase.Proofs.Database.Logs
import DocBase.Proofs.Server.Owners
import DocBase.Proofs.Server.Reading
import DocBase.Proofs.Store.Accounting
import DocBase.Proofs.Store.Scan
import DocBase.Proofs.Store.Quota
import DocBase.Proofs.Query.Pulls
import DocBase.Proofs.Query.Sorting
import DocBase.Proofs.Server.Restored
import DocBase.Proofs.Collection.Lifetime
import DocBase.Proofs.Database.History
import DocBase.Proofs.Value.Place
import DocBase.Proofs.Document.Cut
import DocBase.Proofs.Document.Write
import DocBase.Proofs.Query.Meaning
import DocBase.Proofs.Query.Rejection
import DocBase.Proofs.Query.Projection
import DocBase.Proofs.Query.Exclusion
import DocBase.Proofs.Document.Elements
import DocBase.Proofs.Collection.Appended
import DocBase.Proofs.Collection.Refilled
import DocBase.Proofs.Schema.Added
import DocBase.Proofs.Text.ByteOrder
import DocBase.Proofs.Schema.Conforms
import DocBase.Proofs.Number.Exact
import DocBase.Proofs.Number.Whole
import DocBase.Proofs.Value.ExactOrder
import DocBase.Proofs.Value.Hash
import DocBase.Proofs.Schema.Limits
import DocBase.Proofs.Schema.ReadBack
import DocBase.Proofs.Server.Declared
import DocBase.Proofs.Index.Answers
import DocBase.Proofs.Store.Grammar
import DocBase.Proofs.Store.Cache
