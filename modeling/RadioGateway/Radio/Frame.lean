/-!
# Frames

Bytes off the air, with how well they were heard.
-/

namespace RadioGateway.Radio

structure Signal where
  /-- Strength in dBm. -/
  rssi : Option Float := none
  /-- Signal to noise ratio in dB. -/
  snr : Option Float := none

structure Frame where
  data : List UInt8
  signal : Signal

end RadioGateway.Radio
