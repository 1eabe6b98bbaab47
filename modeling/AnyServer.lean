import AnyServer.Library.Lts
import AnyServer.Library.Keyed
import AnyServer.Library.Session
import AnyServer.ClientRegistry
import AnyServer.HttpBodies
import AnyServer.Disconnects
import AnyServer.EpollServer
import AnyServer.StreamFidelity
import AnyServer.OpenSockets
import AnyServer.UdpServer
import AnyServer.UdpReplies
import AnyServer.Sending
import AnyServer.Library.Files
import AnyServer.Logger
import AnyServer.Stopping
import AnyServer.ServerLoops
import AnyServer.Configuration
import AnyServer.ServerInit
import AnyServer.ServerFactory
import AnyServer.AnyServerImpl
import AnyServer.ServerIds
import AnyServer.Library.SharedPtr
import AnyServer.ServerList
import AnyServer.Lifecycle
import AnyServer.Dispatch
import AnyServer.SharedContexts
import AnyServer.ClientIds
import AnyServer.SharedDescriptors
import AnyServer.Teardown
import AnyServer.Broadcast
import AnyServer.Listening
import AnyServer.WholeMessages
import AnyServer.Decoding
import AnyServer.ConfiguredServers
import AnyServer.InitThrows
import AnyServer.Datagrams
import AnyServer.HttpResponses
import AnyServer.Security
import AnyServer.Relay
import AnyServer.Resources
import AnyServer.Shutdown
import AnyServer.Library.Handles
import AnyServer.Library.MultiMap
import AnyServer.Library.TwoKeys
import AnyServer.LogBounds
import AnyServer.MessageBoundaries
import AnyServer.Payloads
import AnyServer.PosixSignals
import AnyServer.RegistryMap
import AnyServer.ConfigFiles
import AnyServer.Churn
import AnyServer.Echo
import AnyServer.RelayServer
import AnyServer.EchoClients
import AnyServer.MainProgram
