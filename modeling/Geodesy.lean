import Geodesy.Setups.Timeline
import Geodesy.Setups.OtherSites
import Geodesy.Setups.Bounds
import Geodesy.Setups.Corrections
import Geodesy.Setups.Fidelity
import Geodesy.Setups.PeriodSearch
import Geodesy.Nodes.Overlap
import Geodesy.Nodes.UploadHistory
import Geodesy.Nodes.ListingOrder
import Geodesy.Nodes.Reupload
import Geodesy.Event.Delivery
import Geodesy.Event.AtMostOnce
import Geodesy.Event.Recorded
import Geodesy.Networks.Announced
import Geodesy.Security.EditAuthority
import Geodesy.Uploads.OneLog
import Geodesy.Domain.Intersection
import Geodesy.Mapper.StringToList
import Geodesy.Mapper.ResponsibleParties
import Geodesy.Support.GMLGeoTools
import Geodesy.Equipment.Stability
import Geodesy.Mapper.LogItems
import Geodesy.Pipeline.Quiet
import Geodesy.Security.Joining
import Geodesy.Pipeline.Progress
import Geodesy.Positions.Import
import Geodesy.Notifications.Notices
import Geodesy.Pipeline.Answers
import Geodesy.Mapper.Download
