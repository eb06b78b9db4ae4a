import DsEthComm.Conc.Run
import DsEthComm.Conc.Ready
import DsEthComm.Conc.Prog
import DsEthComm.Conc.Pool
import DsEthComm.Bytes
import DsEthComm.Ds5.Report
import DsEthComm.Ds5.Publish
import DsEthComm.Usbh.Lock
import DsEthComm.Startup
import DsEthComm.Nrf24l01.Transport
import DsEthComm.Nrf24l01.Chip
import DsEthComm.Nrf24l01.Driver
import DsEthComm.Nrf24l01.Basic
import DsEthComm.Nrf24l01.Radio
import DsEthComm.Nrf24l01.Eval
import DsEthComm.Nrf24l01.Cached
import DsEthComm.Nrf24l01.Irq
import DsEthComm.Nrf24l01.Isolation
import DsEthComm.Nrf24l01.TxAddress
import DsEthComm.Nrf24l01.Attribution
import DsEthComm.Nrf24l01.Faults
import DsEthComm.Nrf24l01.Unwind
import DsEthComm.Nrf24l01.Init
import DsEthComm.Nrf24l01.FailedInit
import DsEthComm.Nrf24l01.Masked
import DsEthComm.Nrf24l01.Payload
import DsEthComm.CString
import DsEthComm.Udp.Destination
import DsEthComm.W25qxx.Chip
import DsEthComm.W25qxx.Driver
import DsEthComm.Flashdb.Port
import DsEthComm.Flashdb.Kv
import DsEthComm.Nrf24l01.Dropped
import DsEthComm.Buffer
import DsEthComm.Rtt.Channel
import DsEthComm.W25qxx.Interface
import DsEthComm.Monitor
import DsEthComm.Strtol
import DsEthComm.Nrf24l01.Shell
import DsEthComm.Nrf24l01.Wait
import DsEthComm.Nrf24l01.Receive
import DsEthComm.Flashdb.Ideal
import DsEthComm.Flashdb.PowerLoss
import DsEthComm.Nrf24l01.Residue
import DsEthComm.Chprintf
import DsEthComm.Cyclic
import DsEthComm.Rtt.Ring
import DsEthComm.Rtt.Link
import DsEthComm.Shell.Console
import DsEthComm.Udp.Network
import DsEthComm.Flashdb.Crc32
import DsEthComm.Flashdb.Status
import DsEthComm.Flashdb.Cache
import DsEthComm.Flashdb.Scan
import DsEthComm.Flashdb.Node
import DsEthComm.Flashdb.SetKv
