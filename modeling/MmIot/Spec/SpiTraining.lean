import Mathlib.Data.Int.Notation

/-! `mmhal_wlan_send_training_seq` of `morsemicro_spi.c`: one transfer for which the chip
select is configured the other way round. Errno values are 0 on success. -/

namespace MmIot

/-- `gpio_flags_t` -/
abbrev GpioFlags := BitVec 32

/-- Zephyr's values of the flags that are used. -/
structure GpioConstants where
  GPIO_ACTIVE_LOW : GpioFlags
  GPIO_OUTPUT_INACTIVE : GpioFlags

/-- Which `struct spi_config` the bus is locked with: the device's, or the copy on the stack. -/
inductive SpiConfig where
  | device | temporary
  deriving DecidableEq

/-- The configuration of the chip-select pin, and who holds the bus. -/
structure SpiBus where
  csFlags : GpioFlags
  lockedBy : Option SpiConfig
  deriving DecidableEq

/-- What `gpio_pin_get_config_dt` returns: 0, `-ENOSYS`, or another negative value. -/
inductive GetConfigResult where
  | ok | enosys | failed
  deriving DecidableEq

/-- The outcomes of the calls that are made; a driver may keep the lock after a failed transfer. -/
structure TrainingEnv where
  getConfig : GetConfigResult
  configure : ℤ
  transceive : ℤ
  keepsLock : Bool
  release : ℤ
  restore : ℤ

def gpioPinConfigure (ret : ℤ) (flags : GpioFlags) (s : SpiBus) : SpiBus :=
  if ret = 0 then { s with csFlags := flags } else s

/-- With `SPI_LOCK_ON` the bus stays locked after a transfer. -/
def spiTransceive (ret : ℤ) (keepsLock : Bool) (config : SpiConfig) (s : SpiBus) : SpiBus :=
  if ret = 0 ∨ keepsLock then { s with lockedBy := some config } else s

def spiRelease (ret : ℤ) (s : SpiBus) : SpiBus :=
  if ret = 0 then { s with lockedBy := none } else s

/-- The flags that the pin is taken to have: those reported, or the default. -/
def trainingFlags (gpio : GpioConstants) (env : TrainingEnv) (s : SpiBus) : GpioFlags :=
  if env.getConfig = .ok then s.csFlags else gpio.GPIO_OUTPUT_INACTIVE

def mmhalWlanSendTrainingSeq (gpio : GpioConstants) (env : TrainingEnv) (s : SpiBus) : SpiBus :=
  let flags := trainingFlags gpio env s
  if env.getConfig = .failed then s
  else
    let s := gpioPinConfigure env.configure (flags &&& ~~~gpio.GPIO_ACTIVE_LOW) s
    if env.configure ≠ 0 then s
    else
      let s := spiTransceive env.transceive env.keepsLock .temporary s
      if env.transceive ≠ 0 then s
      else
        -- the result of the release is not looked at
        let s := spiRelease env.release s
        gpioPinConfigure env.restore (flags ||| gpio.GPIO_ACTIVE_LOW) s

end MmIot
