import NexusRelay.Connections.Ending
import NexusRelay.Connections.Listening
import NexusRelay.Connections.Order
import NexusRelay.Connections.Panics
import NexusRelay.Connections.Progress
import NexusRelay.Connections.Sessions
import NexusRelay.Connections.Teardown
import NexusRelay.Delivery.Integrity
import NexusRelay.Delivery.Isolation
import NexusRelay.Delivery.Registry
import NexusRelay.Delivery.Routing
import NexusRelay.Delivery.Sweeping
import NexusRelay.Delivery.Wire
import NexusRelay.Listener.Payments
import NexusRelay.Listener.Safety
import NexusRelay.Listener.Window
import NexusRelay.Requests.Failure
import NexusRelay.Requests.Ids
import NexusRelay.Requests.Subscribing
