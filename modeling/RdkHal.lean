import RdkHal.Lib.Runs
import RdkHal.Lib.Chain
import RdkHal.Lib.Text
import RdkHal.Lib.Bytes
import RdkHal.Lib.Numeral
import RdkHal.Lib.Inet
import RdkHal.Platform
import RdkHal.Vlan.Config
import RdkHal.Vlan.ConfigList
import RdkHal.Vlan.Hal
import RdkHal.Vlan.Bridges
import RdkHal.Vlan.Tools
import RdkHal.Vlan.LinuxHost
import RdkHal.Vlan.Interfaces
import RdkHal.Vlan.DelGroup
import RdkHal.Vlan.GroupTest
import RdkHal.Vlan.Arguments
import RdkHal.Vlan.Groups
import RdkHal.Vlan.PortLines
import RdkHal.Dhcp.Client
import RdkHal.Dhcp.Remain
import RdkHal.Dhcp.Interleaving
import RdkHal.Dhcp.Exact
import RdkHal.Dhcp.Getters
import RdkHal.Dhcp.Sources
import RdkHal.Dhcp.StoreOnly
import RdkHal.Dhcp.Mask
import RdkHal.Dhcp.DnsServers
import RdkHal.Lib.Memory
import RdkHal.Lib.Tokens
import RdkHal.Lib.Search
import RdkHal.Lib.Lines
import RdkHal.Lib.Format
import RdkHal.Lib.Posix
import RdkHal.Cm.Registers
import RdkHal.Wifi.Syscmd
import RdkHal.Wifi.Hal
import RdkHal.Wifi.Stats
import RdkHal.Wifi.Stations
import RdkHal.Wifi.Locals
import RdkHal.Wifi.Kick
import RdkHal.Wifi.Essid
import RdkHal.Wifi.Names
import RdkHal.Wifi.Commands
import RdkHal.Wifi.StationTable
import RdkHal.Wifi.Status
import RdkHal.Wifi.Counters
import RdkHal.Wifi.StationLines
import RdkHal.Wifi.Columns
import RdkHal.Capacity
import RdkHal.Mta.Logs
import RdkHal.Lib.Machines
import RdkHal.Lib.Beside
import RdkHal.Lib.WordSearch
import RdkHal.Lib.Dotted
import RdkHal.Lib.Owners
import RdkHal.Vlan.Calls
import RdkHal.Vlan.Nodes
import RdkHal.Vlan.Manager
import RdkHal.Vlan.Refinement
import RdkHal.Vlan.Vocabulary
import RdkHal.Vlan.Clients
import RdkHal.Dhcp.Questions
import RdkHal.Dhcp.Lease
import RdkHal.Dhcp.Reports
import RdkHal.Mta.Battery
import RdkHal.Mta.Copies
import RdkHal.Wifi.Settings
import RdkHal.Wifi.Driver
import RdkHal.Wifi.Words
import RdkHal.Wifi.Configuration
import RdkHal.Wifi.Isolation
import RdkHal.Wifi.Associations
