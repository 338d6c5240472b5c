import HiMpu.FscMemIsolation
import HiMpu.FscMemCoalescing
import HiMpu.Gpio
import HiMpu.GmacLink
import HiMpu.GmacReceive
import HiMpu.GmacTransmit
import HiMpu.Mcs
import HiMpu.MsgRing
import HiMpu.MsgConsumer
import HiMpu.TrngRandom
import HiMpu.TrngReset
import HiMpu.DmacAttribution
import HiMpu.DmacProgram
import HiMpu.I2cCallbacks
import HiMpu.I2cPolled
import HiMpu.MsgPairing
import HiMpu.MailboxFail
import HiMpu.GmacMask
import HiMpu.GmacTxAccount
import HiMpu.GmacDma
import HiMpu.GmacLoopback
import HiMpu.I2cEeprom
import HiMpu.I2cBlockRead
import HiMpu.HwLock
import HiMpu.HiTimer
import HiMpu.HiTimerValue
import HiMpu.WatchdogStop
import HiMpu.WatchdogWait
import HiMpu.HimciClock
import HiMpu.HimciDone
import HiMpu.HimciSwitch
import HiMpu.SfcDmaAgree
import HiMpu.SfcAddrWidth
import HiMpu.I2cSmbusResponse
import HiMpu.I2cSmbusQueue
import HiMpu.GpioIoctl
import HiMpu.GpioIsr
import HiMpu.GpioEvent
import HiMpu.LocalBusMemory
import HiMpu.AdcAlarm
import HiMpu.SpiRead
import HiMpu.SpiDivider
import HiMpu.UartTermios
import HiMpu.SpiCompletion
import HiMpu.I2cAdapter
import HiMpu.MmuWalk
import HiMpu.FscMemComplete
import HiMpu.FscMemDoubleFree
import HiMpu.MmuBoot
import HiMpu.Coremsg
import HiMpu.UartConnectAtomic
import HiMpu.HostUart
import HiMpu.RtLocalbus
import HiMpu.PcieMsi
import HiMpu.PcieWindows
import HiMpu.Iocfg
import HiMpu.PhyDrivers
import HiMpu.PhyHandshake
import HiMpu.Gic
import HiMpu.SfcPartitions
import HiMpu.SfcBlockLock
import HiMpu.I2cSlaveDeploy
import HiMpu.I2cSlaveCache
import HiMpu.SfcErase
import HiMpu.SfcDies
import HiMpu.SfcIftype
import HiMpu.HimciChain
import HiMpu.Pwm
import HiMpu.UsrData
import HiMpu.SpiAsync
import HiMpu.UartDma
