import NeuronWired.Alive
import NeuronWired.AllOrNothing
import NeuronWired.Announced
import NeuronWired.Arena.Bump
import NeuronWired.Base
import NeuronWired.ConsumerControl
import NeuronWired.Crc.Reflected
import NeuronWired.Crc.Serial
import NeuronWired.Crc32
import NeuronWired.Crc8
import NeuronWired.CrcRange
import NeuronWired.Delivery
import NeuronWired.Detection
import NeuronWired.Disconnect
import NeuronWired.DisconnectDisabled
import NeuronWired.Eeprom
import NeuronWired.EepromBounds
import NeuronWired.EepromDurability
import NeuronWired.EepromUpgrade
import NeuronWired.EepromWear
import NeuronWired.FifoBounds
import NeuronWired.FifoQueue
import NeuronWired.Handler
import NeuronWired.Handover
import NeuronWired.Handshake
import NeuronWired.Heap
import NeuronWired.Hid.Descriptor
import NeuronWired.HidFraming
import NeuronWired.HostState
import NeuronWired.InEffect
import NeuronWired.Inbound
import NeuronWired.Interrupt.Machine
import NeuronWired.KeyboardDescriptor
import NeuronWired.KeyboardOrder
import NeuronWired.MouseReports
import NeuronWired.MoveResult
import NeuronWired.Notification
import NeuronWired.OutEffect
import NeuronWired.Outbound
import NeuronWired.Ownership
import NeuronWired.PacketCrc
import NeuronWired.PortReads
import NeuronWired.PortSends
import NeuronWired.Rearm
import NeuronWired.SpiSlave
import NeuronWired.System
import NeuronWired.TransmitStream
import NeuronWired.Wire
import NeuronWired.HidDelivery
import NeuronWired.Ports
import NeuronWired.PortOutbound
import NeuronWired.Recovery
import NeuronWired.Typing
import NeuronWired.EepromCrash
import NeuronWired.Hid.Readings
import NeuronWired.MediaReports
