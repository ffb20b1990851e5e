import DashboardAccess.Ascending
import DashboardAccess.Scope
import DashboardAccess.Role
import DashboardAccess.Subject
import DashboardAccess.Permission
import DashboardAccess.Failure
import DashboardAccess.Requirement
import DashboardAccess.Text.CaseTable
import DashboardAccess.Text.LetterCase
import DashboardAccess.Text.Slug
import DashboardAccess.Resource
import DashboardAccess.PermissionTable
import DashboardAccess.Rows
import DashboardAccess.Store
import DashboardAccess.Store.History
import DashboardAccess.AccessList
import DashboardAccess.Gate
import DashboardAccess.Replay
import DashboardAccess.Binary64
import DashboardAccess.WordSize
import DashboardAccess.Json
import DashboardAccess.Json.Number
import DashboardAccess.Json.Token
import DashboardAccess.Json.Tree
import DashboardAccess.Settings.KeyPath
import DashboardAccess.Settings.Merge
import DashboardAccess.Settings.File
import DashboardAccess.Settings
import DashboardAccess.Clock
import DashboardAccess.Journal
import DashboardAccess.Store.Backend
import DashboardAccess.Session
import DashboardAccess.Encoding
import DashboardAccess.Proofs.Access
import DashboardAccess.Proofs.Entries
import DashboardAccess.Proofs.Replacement
import DashboardAccess.Proofs.Separation
import DashboardAccess.Proofs.ScopeText
import DashboardAccess.Proofs.Reach
import DashboardAccess.Proofs.Frame
import DashboardAccess.Proofs.ByteOrder
import DashboardAccess.Proofs.Writes
import DashboardAccess.Proofs.Contents
import DashboardAccess.Proofs.LifeCycle
import DashboardAccess.Proofs.Listing
import DashboardAccess.Proofs.Hierarchy
import DashboardAccess.Proofs.OpenGates
import DashboardAccess.Proofs.Rejections
import DashboardAccess.Proofs.Courses
import DashboardAccess.Proofs.Loading
import DashboardAccess.Proofs.Faults
import DashboardAccess.Proofs.Managed
import DashboardAccess.Proofs.Monotone
import DashboardAccess.Proofs.Growth
import DashboardAccess.Proofs.RoleGrants
import DashboardAccess.Proofs.Membership
import DashboardAccess.Proofs.ActionNames
import DashboardAccess.Proofs.AccessLists
import DashboardAccess.Proofs.FlatPermissions
import DashboardAccess.Proofs.Coverage
import DashboardAccess.Proofs.ScopeOrder
import DashboardAccess.Proofs.ReservedId
import DashboardAccess.Proofs.UniqueReading
import DashboardAccess.Proofs.Slugs
import DashboardAccess.Proofs.Addresses
import DashboardAccess.Proofs.LowerCase
import DashboardAccess.Proofs.SettingKeys
import DashboardAccess.Proofs.Precedence
