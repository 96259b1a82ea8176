import MegaVnc.Foundation.Fallible
import MegaVnc.Foundation.Run
import MegaVnc.Foundation.TwoRuns
import MegaVnc.Foundation.Tasks
import MegaVnc.Foundation.Ascending
import MegaVnc.Foundation.Table
import MegaVnc.Foundation.Text
import MegaVnc.Foundation.UnixPath
import MegaVnc.Foundation.Catalogue
import MegaVnc.Foundation.Slots
import MegaVnc.Foundation.ReadModifyWrite
import MegaVnc.Foundation.Mailbox
import MegaVnc.Foundation.Buffer
import MegaVnc.Foundation.Fifo
import MegaVnc.Foundation.Lines
import MegaVnc.Foundation.Custody
import MegaVnc.Foundation.Scan
import MegaVnc.Domain.Entity
import MegaVnc.Domain.Exception
import MegaVnc.Repository.Database
import MegaVnc.Repository.World
import MegaVnc.Service.RemotePcApiService
import MegaVnc.Service.RemotePcService
import MegaVnc.Service.AdminService
import MegaVnc.FileTransfer.FileService
import MegaVnc.Tcp.EventMessage
import MegaVnc.Tcp.MessageService
import MegaVnc.Repeater.RepeaterEvents
import MegaVnc.Repeater.Repeater
import MegaVnc.Repeater.Rendezvous
import MegaVnc.Repeater.RepeaterProc
import MegaVnc.Repeater.RelayExit
import MegaVnc.Repeater.RouteConnections
import MegaVnc.Repeater.EventInterface
import MegaVnc.Repeater.Mode1
import MegaVnc.Repeater.Descriptors
import MegaVnc.Repeater.SafeTables
import MegaVnc.Repeater.TableCodes
import MegaVnc.Repeater.InventedCodes
import MegaVnc.Repeater.Ownership
import MegaVnc.Repeater.Isolation
import MegaVnc.Repeater.OpenedServers
import MegaVnc.Repeater.Dictionary
import MegaVnc.Repeater.IniParser
import MegaVnc.Repeater.ReadIni
import MegaVnc.Repeater.IniText
import MegaVnc.Repeater.ListedSessions
import MegaVnc.System.Application
import MegaVnc.System.Frame
import MegaVnc.System.RemotePcEffect
import MegaVnc.System.DirectoryEffect
import MegaVnc.System.Assignment
import MegaVnc.System.RepeaterId
import MegaVnc.System.Grant
import MegaVnc.System.Holder
import MegaVnc.System.EventLine
import MegaVnc.System.Delivery
import MegaVnc.System.StatusRefinement
import MegaVnc.System.SessionEnd
import MegaVnc.System.EventPipeline
import MegaVnc.System.RepeaterProgram
import MegaVnc.System.Interleaving
import MegaVnc.System.FilePrivacy
import MegaVnc.System.StoredFile
import MegaVnc.System.FileFailure
import MegaVnc.System.GroupGuard
import MegaVnc.System.DomainIntegrity
import MegaVnc.System.FrozenAssignment
import MegaVnc.System.ConcurrentRegistration
import MegaVnc.System.DeletedPc
import MegaVnc.System.OwnPcs
import MegaVnc.System.ForeignPcs
import MegaVnc.Web.SecurityConfig
import MegaVnc.Web.Controllers
import MegaVnc.Web.GlobalExceptionHandler
import MegaVnc.Web.RemotePcsPage
import MegaVnc.System.AdminRights
import MegaVnc.System.ConnectedUpload
import MegaVnc.System.EventEffects
import MegaVnc.System.AccessLog
import MegaVnc.System.InUse
import MegaVnc.System.Usernames
import MegaVnc.System.PcViews
import MegaVnc.System.RegisterConnect
import MegaVnc.System.AssignmentLists
import MegaVnc.System.Sessions
import MegaVnc.System.PasswordChange
import MegaVnc.System.DeletedUser
import MegaVnc.System.ConcurrentAssignment
import MegaVnc.System.LivePage
import MegaVnc.System.ErrorHandlers
import MegaVnc.Viewer.Rfb
import MegaVnc.System.ViewerLink
