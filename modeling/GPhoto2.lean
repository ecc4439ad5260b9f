import GPhoto2.Proofs.Ax203.YuvDelta
import GPhoto2.Proofs.Camera.CameraList
import GPhoto2.Proofs.Camera.Info
import GPhoto2.Proofs.Canon.GetFile
import GPhoto2.Proofs.Canon.SentMsg
import GPhoto2.Proofs.Digigr8.Init
import GPhoto2.Proofs.File.Copy
import GPhoto2.Proofs.File.FileName
import GPhoto2.Proofs.Filesys.Append
import GPhoto2.Proofs.Filesys.Browse
import GPhoto2.Proofs.Filesys.CacheCoherent
import GPhoto2.Proofs.Filesys.LruBudget
import GPhoto2.Proofs.Filesys.Reset
import GPhoto2.Proofs.Image.AhdBayer
import GPhoto2.Proofs.Image.Jpeg
import GPhoto2.Proofs.Image.Thumbnail
import GPhoto2.Proofs.Konica.RoundTrip
import GPhoto2.Proofs.Pentax.Pslr
import GPhoto2.Proofs.Port.PortInfoList
import GPhoto2.Proofs.Ptp.Attribution
import GPhoto2.Proofs.Ptp.CanonBlocks
import GPhoto2.Proofs.Ptp.CanonDirectory
import GPhoto2.Proofs.Ptp.CustomFunc
import GPhoto2.Proofs.Ptp.EkText
import GPhoto2.Proofs.Ptp.Filled
import GPhoto2.Proofs.Ptp.GetData
import GPhoto2.Proofs.Ptp.Olympus
import GPhoto2.Proofs.Ptp.PackSafe
import GPhoto2.Proofs.Ptp.PropertyListRoundTrip
import GPhoto2.Proofs.Ptp.PtpipReceive
import GPhoto2.Proofs.Ptp.PtpipSend
import GPhoto2.Proofs.Ptp.ReadFile
import GPhoto2.Proofs.Ptp.SendData
import GPhoto2.Proofs.Ptp.Viewfinder
import GPhoto2.Proofs.Ricoh.GetPic
import GPhoto2.Proofs.Ricoh.Packet
import GPhoto2.Proofs.Setting.SettingFile
import GPhoto2.Proofs.Sierra.Folder
import GPhoto2.Proofs.Sierra.ReadPacket
import GPhoto2.Proofs.Sierra.SetStringRegister
import GPhoto2.Proofs.Sonix.Decode
import GPhoto2.Proofs.St2205.Filenames
import GPhoto2.Proofs.Topfield.GetFile
import GPhoto2.Proofs.Topfield.Names
import GPhoto2.Proofs.Topfield.Wire
import GPhoto2.Proofs.Tp6801.Retry
import GPhoto2.Proofs.Tp6801.Stored
