import PagedQuery.Postgres.Script
import PagedQuery.Proofs.Statement.Normalization
import PagedQuery.Proofs.Trace.Alignment
import PagedQuery.Proofs.Statement.Conjunction
import PagedQuery.Proofs.Statement.Counting
import PagedQuery.Proofs.Statement.Regrouping
import PagedQuery.Settings.Load
import PagedQuery.Proofs.Trace.Numbered
import PagedQuery.Proofs.Trace.Shared
import PagedQuery.Proofs.Renumbering
import PagedQuery.Proofs.Trace.Denoted
import PagedQuery.Proofs.Statement.Ending
import PagedQuery.Proofs.Statement.Limits
import PagedQuery.Proofs.Statement.Paging
import PagedQuery.Proofs.Window
import PagedQuery.Proofs.Dialects
import PagedQuery.Proofs.Fetching
import PagedQuery.Proofs.Build.Values
import PagedQuery.Proofs.Build.Precedence
import PagedQuery.Proofs.Build.Strictness
import PagedQuery.Proofs.Similarity.Texts
import PagedQuery.Proofs.Similarity.Plans
import PagedQuery.Proofs.Statement.Locking
import PagedQuery.Proofs.Restyling
import PagedQuery.Proofs.Surroundings
import PagedQuery.Proofs.Ordering
import PagedQuery.Proofs.Bytes.Plan
import PagedQuery.Proofs.Page
import PagedQuery.Proofs.Build.Fields
import PagedQuery.Proofs.Runs
import PagedQuery.Proofs.ConnectionString
import PagedQuery.Proofs.Arguments
import PagedQuery.Proofs.Bytes.TopLevel
import PagedQuery.Proofs.Bytes.Placeholders
